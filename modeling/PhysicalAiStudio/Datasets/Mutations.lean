import Mathlib.Data.List.Nodup
import Mathlib.Logic.Function.Basic
import PhysicalAiStudio.Concurrency.History
import PhysicalAiStudio.Datasets.Overwrite

/-! Two mutations of one dataset, run by different processes.

A mutation copies the dataset to its cache, edits the cache and overwrites the
dataset with it. A copy and an overwrite take time, and nothing keeps the other
mutation from overwriting the dataset meanwhile: such a copy may have read, and
such an overwrite may leave, anything. Left alone, a copy holds the dataset and
an overwrite leaves the cache.
-/

set_option autoImplicit false

namespace PhysicalAiStudio.Datasets

open Concurrency Files

inductive Party where
  | one
  | two
  deriving DecidableEq

def Party.other : Party → Party
  | .one => .two
  | .two => .one

inductive Episode where
  | existing (index : Nat)
  | recorded (party : Party) (index : Nat)
  deriving DecidableEq

abbrev Content := Option (List Episode)

inductive Kind where
  | recording
  | deletion (episodeIndices : List Nat)
  deriving DecidableEq

inductive Stage where
  | waiting
  | copying
  | editing
  | overwriting
  | completed
  deriving DecidableEq

structure Progress where
  stage : Stage := .waiting
  /-- The other mutation was overwriting the dataset during this copy or overwrite. -/
  overlapped : Bool := false
  copied : List Episode := []
  cache : List Episode := []
  saved : List Episode := []
  hasMutation : Bool := false
  deriving DecidableEq

structure Shared where
  source : Content
  progress : Party → Progress

inductive DatasetEvent where
  | copyBegan (party : Party)
  | copyEnded (party : Party) (content : Content)
  | episodeSaved (party : Party) (landed : Bool)
  | overwriteBegan (party : Party)
  | overwriteEnded (party : Party) (content : Content)
  | closed (party : Party)
  deriving DecidableEq

def kept (episodeIndices : List Nat) (episodes : List Episode) : List Episode :=
  (episodes.zipIdx.filter (·.2 ∉ episodeIndices)).map Prod.fst

def dropped (episodeIndices : List Nat) (episodes : List Episode) : List Episode :=
  (episodes.zipIdx.filter (·.2 ∈ episodeIndices)).map Prod.fst

/-- What the mutation leaves in place of the dataset; deleting all episodes deletes the directory. -/
def written : Kind → List Episode → Content
  | .recording, cache => some cache
  | .deletion _, cache => if cache = [] then none else some cache

def Shared.set (shared : Shared) (party : Party) (progress : Progress) : Shared :=
  { shared with progress := Function.update shared.progress party progress }

/-- `start_recording_mutation`, `save_episode` and `teardown` of a recording, and `delete_episodes` with the
copy it makes of the remaining episodes. -/
def mutate (kind : Party → Kind) (shared : Shared) : DatasetEvent → Option Shared
  | .copyBegan party =>
    if (shared.progress party).stage = .waiting then
      some (shared.set party { shared.progress party with
        stage := .copying
        overlapped := (shared.progress party.other).stage = .overwriting })
    else none
  | .copyEnded party content =>
    let own := shared.progress party
    if own.stage = .copying ∧ (own.overlapped ∨ content = shared.source) then
      match kind party, content with
      | .recording, content =>
        some (shared.set party { own with
          stage := .editing, copied := content.getD [], cache := content.getD [] })
      | .deletion indices, some episodes =>
        some (shared.set party { own with
          stage := .editing, copied := episodes, cache := kept indices episodes, hasMutation := true })
      -- There is no dataset to delete episodes of.
      | .deletion _, none => none
    else none
  | .episodeSaved party landed =>
    let own := shared.progress party
    let episode := Episode.recorded party own.saved.length
    if own.stage = .editing ∧ kind party = .recording then
      -- `has_mutation` is set first, whether or not the cache then saves the episode.
      if landed then
        some (shared.set party { own with
          hasMutation := true, cache := own.cache ++ [episode], saved := own.saved ++ [episode] })
      else some (shared.set party { own with hasMutation := true })
    else none
  | .overwriteBegan party =>
    let own := shared.progress party
    let others := shared.progress party.other
    if own.stage = .editing ∧ own.hasMutation then
      some ((shared.set party { own with
        stage := .overwriting, overlapped := others.stage = .overwriting }).set party.other
          { others with overlapped := true })
    else none
  | .overwriteEnded party content =>
    let own := shared.progress party
    if own.stage = .overwriting ∧ (own.overlapped ∨ content = written (kind party) own.cache) then
      some { shared.set party { own with stage := .completed } with source := content }
    else none
  | .closed party =>
    let own := shared.progress party
    if own.stage = .editing ∧ ¬ own.hasMutation then
      some (shared.set party { own with stage := .completed })
    else none

/-- A dataset that has some episodes or does not exist, before either mutation. -/
def untouched (episodes : Option Nat) : Shared where
  source := episodes.map fun count => (List.range count).map .existing
  progress _ := {}

/-- Where the dataset and the mutations stand after some events, newest first. -/
def mutated (kind : Party → Kind) (episodes : Option Nat) : List DatasetEvent → Option Shared
  | [] => some (untouched episodes)
  | event :: older => (mutated kind episodes older).bind fun shared => mutate kind shared event

def Shared.saved (shared : Shared) (party : Party) : List Episode :=
  (shared.progress party).saved

def Shared.deleted (kind : Party → Kind) (shared : Shared) (party : Party) : List Episode :=
  match kind party with
  | .recording => []
  | .deletion indices => dropped indices (shared.progress party).copied

def HasBothEffects (kind : Party → Kind) (shared : Shared) : Prop :=
  (∀ party, ∀ episode ∈ shared.saved party,
    (∀ other, episode ∉ shared.deleted kind other) → episode ∈ shared.source.getD []) ∧
  ∀ party, ∀ episode ∈ shared.deleted kind party, episode ∉ shared.source.getD []

def Stale (party : Party) (history : List DatasetEvent) : Prop :=
  ∃ recent before content, history = recent ++ .copyBegan party :: before ∧
    .overwriteEnded party.other content ∈ recent

def FreshCopies (history : List DatasetEvent) : Prop :=
  Always (fun older event => ∀ party content, event = .overwriteEnded party content → ¬ Stale party older) history

/-- An overwrite that returns on disk is a step of the mutation: it leaves what the cache holds. -/
theorem mutate_overwrite_returned {kind : Party → Kind} {shared : Shared} {party : Party} (read : Tree → Content)
    {cache : Directory} {source : Option Directory} {attempts : List Attempt}
    (overwriting : (shared.progress party).stage = .overwriting)
    (reads : read cache.tree = written (kind party) (shared.progress party).cache)
    (returned : (overwrite source cache attempts).1 = .returned) :
    mutate kind shared (.overwriteEnded party (read (overwrite source cache attempts).2.1)) =
      some { shared.set party { shared.progress party with stage := .completed } with
        source := written (kind party) (shared.progress party).cache } := by
  rw [overwrite_returned source cache attempts returned, reads]
  simp [mutate, overwriting]

/-! ### Episodes kept and dropped -/

theorem mem_kept {indices : List Nat} {episodes : List Episode} {episode : Episode} :
    episode ∈ kept indices episodes ↔ ∃ index, episodes[index]? = some episode ∧ index ∉ indices := by
  simp [kept, List.mem_zipIdx_iff_getElem?]

theorem mem_dropped {indices : List Nat} {episodes : List Episode} {episode : Episode} :
    episode ∈ dropped indices episodes ↔ ∃ index, episodes[index]? = some episode ∧ index ∈ indices := by
  simp [dropped, List.mem_zipIdx_iff_getElem?]

theorem kept_or_dropped (indices : List Nat) {episodes : List Episode} {episode : Episode}
    (member : episode ∈ episodes) : episode ∈ kept indices episodes ∨ episode ∈ dropped indices episodes := by
  obtain ⟨index, found⟩ := List.mem_iff_getElem?.mp member
  by_cases listed : index ∈ indices
  · exact .inr (mem_dropped.mpr ⟨index, found, listed⟩)
  · exact .inl (mem_kept.mpr ⟨index, found, listed⟩)

theorem not_kept_of_dropped {indices : List Nat} {episodes : List Episode} {episode : Episode}
    (distinct : episodes.Nodup) (out : episode ∈ dropped indices episodes) : episode ∉ kept indices episodes := by
  intro stays
  obtain ⟨index, found, listed⟩ := mem_dropped.mp out
  obtain ⟨other, found', unlisted⟩ := mem_kept.mp stays
  obtain ⟨bound, at_index⟩ := List.getElem?_eq_some_iff.mp found
  obtain ⟨bound', at_other⟩ := List.getElem?_eq_some_iff.mp found'
  have same : index = other := (distinct.getElem_inj_iff).mp (at_index.trans at_other.symm)
  exact unlisted (same ▸ listed)

theorem kept_sublist (indices : List Nat) (episodes : List Episode) : (kept indices episodes).Sublist episodes := by
  have sublist := (List.filter_sublist (p := fun pair => decide (pair.2 ∉ indices)) (l := episodes.zipIdx)).map Prod.fst
  rwa [List.zipIdx_map_fst] at sublist

theorem dropped_subset (indices : List Nat) (episodes : List Episode) :
    ∀ episode ∈ dropped indices episodes, episode ∈ episodes := by
  intro episode out
  obtain ⟨index, found, -⟩ := mem_dropped.mp out
  exact List.mem_of_getElem? found

@[simp] theorem written_getD (kind : Kind) (cache : List Episode) : (written kind cache).getD [] = cache := by
  cases kind with
  | recording => rfl
  | deletion indices =>
    by_cases empty : cache = [] <;> simp [written, empty]

/-! ### One mutation's progress -/

theorem Party.other_ne (party : Party) : party.other ≠ party := by
  cases party <;> decide

@[simp] theorem Party.other_other (party : Party) : party.other.other = party := by
  cases party <;> rfl

theorem Party.eq_or_other (party other : Party) : other = party ∨ other = party.other := by
  cases party <;> cases other <;> decide

@[simp] theorem Shared.set_same (shared : Shared) (party : Party) (progress : Progress) :
    (shared.set party progress).progress party = progress := Function.update_self ..

@[simp] theorem Shared.set_other (shared : Shared) (party : Party) (progress : Progress) :
    (shared.set party progress).progress party.other = shared.progress party.other :=
  Function.update_of_ne party.other_ne ..

def Landed (party : Party) (history : List DatasetEvent) : Prop :=
  ∃ content, .overwriteEnded party content ∈ history

def edited : Kind → List Episode → List Episode → List Episode
  | .recording, copied, saved => copied ++ saved
  | .deletion indices, copied, _ => kept indices copied

/-- What a mutation did so far, whatever the other did. -/
structure Accounted (kind : Kind) (party : Party) (history : List DatasetEvent) (progress : Progress) : Prop where
  recorded : progress.saved = (List.range progress.saved.length).map (.recorded party)
  saves : kind ≠ .recording → progress.saved = []
  early : progress.stage = .waiting ∨ progress.stage = .copying → progress.saved = []
  cached : progress.stage = .editing ∨ progress.stage = .overwriting →
    progress.cache = edited kind progress.copied progress.saved
  unmutated : progress.hasMutation = false →
    progress.saved = [] ∧ (progress.stage = .editing → kind = .recording)
  began : progress.stage ≠ .waiting → .copyBegan party ∈ history
  landed : Landed party history → progress.stage = .completed
  unlanded : progress.stage = .completed → ¬ Landed party history → progress.saved = [] ∧ kind = .recording

theorem Landed.cons {party : Party} {history : List DatasetEvent} (event : DatasetEvent)
    (landed : Landed party history) : Landed party (event :: history) :=
  landed.imp fun _ member => List.mem_cons_of_mem event member

theorem landed_cons_iff {party : Party} {event : DatasetEvent} {history : List DatasetEvent}
    (own : ∀ content, event ≠ .overwriteEnded party content) :
    Landed party (event :: history) ↔ Landed party history := by
  refine ⟨?_, Landed.cons event⟩
  rintro ⟨content, member⟩
  rcases List.mem_cons.mp member with same | member
  · exact absurd same.symm (own content)
  · exact ⟨content, member⟩

theorem Accounted.frame {kind : Kind} {party : Party} {history : List DatasetEvent} {progress : Progress}
    (accounted : Accounted kind party history progress) {event : DatasetEvent}
    (own : ∀ content, event ≠ .overwriteEnded party content) (overlapped : Bool) :
    Accounted kind party (event :: history) { progress with overlapped := overlapped } where
  recorded := accounted.recorded
  saves := accounted.saves
  early := accounted.early
  cached := accounted.cached
  unmutated := accounted.unmutated
  began := fun later => List.mem_cons_of_mem event (accounted.began later)
  landed := fun landed => accounted.landed ((landed_cons_iff own).mp landed)
  unlanded := fun completed absent => accounted.unlanded completed fun landed => absent (landed.cons event)

theorem Accounted.advance {kind : Kind} {party : Party} {history : List DatasetEvent} {progress next : Progress}
    (accounted : Accounted kind party history progress) {event : DatasetEvent}
    (own : ∀ content, event ≠ .overwriteEnded party content)
    (begun : progress.stage ≠ .waiting) (unfinished : progress.stage ≠ .completed)
    (later : ¬ (next.stage = .waiting ∨ next.stage = .copying))
    (recorded : next.saved = (List.range next.saved.length).map (.recorded party))
    (saves : kind ≠ .recording → next.saved = [])
    (cached : next.stage = .editing ∨ next.stage = .overwriting → next.cache = edited kind next.copied next.saved)
    (unmutated : next.hasMutation = false → next.saved = [] ∧ (next.stage = .editing → kind = .recording))
    (unlanded : next.stage = .completed → next.saved = [] ∧ kind = .recording) :
    Accounted kind party (event :: history) next where
  recorded := recorded
  saves := saves
  early := fun early => absurd early later
  cached := cached
  unmutated := unmutated
  began := fun _ => List.mem_cons_of_mem event (accounted.began begun)
  landed := fun landed => absurd (accounted.landed ((landed_cons_iff own).mp landed)) unfinished
  unlanded := fun completed _ => unlanded completed

def DatasetEvent.party : DatasetEvent → Party
  | .copyBegan party | .copyEnded party _ | .episodeSaved party _ | .overwriteBegan party | .overwriteEnded party _
  | .closed party => party

section Steps
variable {kind : Party → Kind} {shared next : Shared} {history : List DatasetEvent} {actor : Party}

theorem mutate_other {event : DatasetEvent} (step : mutate kind shared event = some next) :
    ∃ overlapped, next.progress event.party.other =
      { shared.progress event.party.other with overlapped := overlapped } := by
  cases event with
  | copyBegan actor | closed actor | overwriteEnded actor =>
    simp only [mutate] at step
    split at step <;> cases step
    exact ⟨_, Shared.set_other ..⟩
  | copyEnded actor | episodeSaved actor =>
    simp only [mutate] at step
    split at step
    · split at step <;> cases step
      all_goals exact ⟨_, Shared.set_other ..⟩
    · cases step
  | overwriteBegan actor =>
    simp only [mutate] at step
    split at step <;> cases step
    exact ⟨true, Shared.set_same ..⟩

theorem copyBegan_accounted (own : Accounted (kind actor) actor history (shared.progress actor))
    (step : mutate kind shared (.copyBegan actor) = some next) :
    Accounted (kind actor) actor (.copyBegan actor :: history) (next.progress actor) := by
  simp only [mutate] at step
  split at step <;> cases step
  rename_i waiting
  rw [Shared.set_same]
  exact
    { recorded := own.recorded
      saves := own.saves
      early := fun _ => own.early (.inl waiting)
      cached := by simp
      unmutated := fun without => ⟨(own.unmutated without).1, by simp⟩
      began := fun _ => List.mem_cons_self
      landed := fun landed => by
        have completed := own.landed ((landed_cons_iff (by simp)).mp landed)
        rw [waiting] at completed
        cases completed
      unlanded := by simp }

theorem copyEnded_accounted {content : Content} (own : Accounted (kind actor) actor history (shared.progress actor))
    (step : mutate kind shared (.copyEnded actor content) = some next) :
    Accounted (kind actor) actor (.copyEnded actor content :: history) (next.progress actor) := by
  simp only [mutate] at step
  split at step
  · rename_i copying
    have unsaved := own.early (.inr copying.1)
    have begun : (shared.progress actor).stage ≠ .waiting := by simp [copying.1]
    have unfinished : (shared.progress actor).stage ≠ .completed := by simp [copying.1]
    split at step <;> cases step
    all_goals rw [Shared.set_same]
    · next records =>
      refine own.advance (by simp) begun unfinished (by simp) own.recorded own.saves ?_ (fun _ => ⟨unsaved, fun _ => records⟩)
        (by simp)
      simp [records, unsaved, edited]
    · next indices episodes deletes =>
      refine own.advance (by simp) begun unfinished (by simp) own.recorded own.saves ?_ (by simp) (by simp)
      simp [deletes, edited]
  · cases step

theorem episodeSaved_accounted {landed : Bool} (own : Accounted (kind actor) actor history (shared.progress actor))
    (step : mutate kind shared (.episodeSaved actor landed) = some next) :
    Accounted (kind actor) actor (.episodeSaved actor landed :: history) (next.progress actor) := by
  simp only [mutate] at step
  split at step
  · rename_i saving
    have begun : (shared.progress actor).stage ≠ .waiting := by simp [saving.1]
    have unfinished : (shared.progress actor).stage ≠ .completed := by simp [saving.1]
    split at step <;> cases step
    all_goals rw [Shared.set_same]
    · refine own.advance (by simp) begun unfinished (by simp [saving.1]) ?_ (absurd saving.2) (fun _ => ?_) (by simp)
        (by simp [saving.1])
      · simp only [List.length_append, List.length_singleton, List.range_succ, List.map_append, List.map_cons,
          List.map_nil]
        rw [← own.recorded]
      · simp only [own.cached (.inl saving.1), saving.2, edited, List.append_assoc]
    · exact own.advance (by simp) begun unfinished (by simp [saving.1]) own.recorded (absurd saving.2)
        (fun _ => own.cached (.inl saving.1)) (by simp) (by simp [saving.1])
  · cases step

theorem overwriteBegan_accounted (own : Accounted (kind actor) actor history (shared.progress actor))
    (step : mutate kind shared (.overwriteBegan actor) = some next) :
    Accounted (kind actor) actor (.overwriteBegan actor :: history) (next.progress actor) := by
  simp only [mutate] at step
  split at step <;> cases step
  rename_i mutated
  have progress := Shared.set_other (shared.set actor { shared.progress actor with
    stage := .overwriting, overlapped := (shared.progress actor.other).stage = .overwriting }) actor.other
    { shared.progress actor.other with overlapped := true }
  rw [Party.other_other, Shared.set_same] at progress
  rw [progress]
  exact own.advance (by simp) (by simp [mutated.1]) (by simp [mutated.1]) (by simp) own.recorded own.saves
    (fun _ => own.cached (.inl mutated.1)) (by simp [mutated.2]) (by simp)

theorem overwriteEnded_accounted {content : Content}
    (own : Accounted (kind actor) actor history (shared.progress actor))
    (step : mutate kind shared (.overwriteEnded actor content) = some next) :
    Accounted (kind actor) actor (.overwriteEnded actor content :: history) (next.progress actor) := by
  simp only [mutate] at step
  split at step <;> cases step
  rename_i overwriting
  rw [Shared.set_same]
  exact
    { recorded := own.recorded
      saves := own.saves
      early := by simp
      cached := by simp
      unmutated := fun without => ⟨(own.unmutated without).1, by simp⟩
      began := fun _ => List.mem_cons_of_mem _ (own.began (by simp [overwriting.1]))
      landed := fun _ => rfl
      unlanded := fun _ absent => absurd ⟨content, List.mem_cons_self⟩ absent }

theorem closed_accounted (own : Accounted (kind actor) actor history (shared.progress actor))
    (step : mutate kind shared (.closed actor) = some next) :
    Accounted (kind actor) actor (.closed actor :: history) (next.progress actor) := by
  simp only [mutate] at step
  split at step <;> cases step
  rename_i unmutated
  have without := own.unmutated (by simpa using unmutated.2)
  rw [Shared.set_same]
  exact own.advance (by simp) (by simp [unmutated.1]) (by simp [unmutated.1]) (by simp) own.recorded own.saves
    (by simp) (fun _ => ⟨without.1, by simp⟩) (fun _ => ⟨without.1, without.2 unmutated.1⟩)

theorem mutate_accounted {event : DatasetEvent}
    (accounted : ∀ party, Accounted (kind party) party history (shared.progress party))
    (step : mutate kind shared event = some next) (party : Party) :
    Accounted (kind party) party (event :: history) (next.progress party) := by
  rcases event.party.eq_or_other party with rfl | rfl
  · have own := accounted event.party
    cases event with
    | copyBegan => exact copyBegan_accounted own step
    | copyEnded => exact copyEnded_accounted own step
    | episodeSaved => exact episodeSaved_accounted own step
    | overwriteBegan => exact overwriteBegan_accounted own step
    | overwriteEnded => exact overwriteEnded_accounted own step
    | closed => exact closed_accounted own step
  · obtain ⟨overlapped, rest⟩ := mutate_other step
    rw [rest]
    refine (accounted event.party.other).frame (fun content same => ?_) overlapped
    exact event.party.other_ne (congrArg DatasetEvent.party same).symm

end Steps

theorem mutated_accounted (kind : Party → Kind) (episodes : Option Nat) {history : List DatasetEvent}
    {shared : Shared} (ran : mutated kind episodes history = some shared) (party : Party) :
    Accounted (kind party) party history (shared.progress party) := by
  induction history generalizing shared party with
  | nil =>
    cases ran
    exact
      { recorded := rfl
        saves := fun _ => rfl
        early := fun _ => rfl
        cached := by simp [untouched]
        unmutated := fun _ => ⟨rfl, by simp [untouched]⟩
        began := fun later => absurd rfl later
        landed := by rintro ⟨content, ⟨⟩⟩
        unlanded := by simp [untouched] }
  | cons event older ih =>
    obtain ⟨before, ran, step⟩ := Option.bind_eq_some_iff.mp ran
    exact mutate_accounted (fun party => ih ran party) step party

end PhysicalAiStudio.Datasets
