import PhysicalAiStudio.Datasets.Mutations

/-! When a dataset has the effects of both of its mutations.

Nothing orders the two mutations, so the one that overwrites the dataset last
decides what it holds. Both effects are there when its copy already had the
other's.
-/

set_option autoImplicit false

namespace PhysicalAiStudio.Datasets

open Concurrency

@[simp] theorem not_stale_nil (party : Party) : ¬ Stale party [] := by
  rintro ⟨recent, before, content, same, -⟩
  simp at same

@[simp] theorem stale_cons_iff {party : Party} {event : DatasetEvent} {history : List DatasetEvent} :
    Stale party (event :: history) ↔
      ((∃ content, event = .overwriteEnded party.other content) ∧ .copyBegan party ∈ history) ∨
        Stale party history := by
  constructor
  · rintro ⟨recent, before, content, same, member⟩
    cases recent with
    | nil => cases member
    | cons first recent =>
      obtain ⟨rfl, rfl⟩ := List.cons.inj same
      rcases List.mem_cons.mp member with ended | member
      · exact .inl ⟨⟨content, ended.symm⟩, by simp⟩
      · exact .inr ⟨recent, before, content, rfl, member⟩
  · rintro (⟨⟨content, rfl⟩, begun⟩ | ⟨recent, before, content, rfl, member⟩)
    · obtain ⟨recent, before, rfl⟩ := List.append_of_mem begun
      exact ⟨_ :: recent, before, content, rfl, List.mem_cons_self⟩
    · exact ⟨event :: recent, before, content, rfl, List.mem_cons_of_mem event member⟩

def Stage.Open (stage : Stage) : Prop :=
  stage = .copying ∨ stage = .editing ∨ stage = .overwriting

/-- A mutation that overwrites the dataset though the other has done so since its copy. -/
def Doomed (history : List DatasetEvent) (shared : Shared) : Prop :=
  ∃ party, (shared.progress party).stage = .overwriting ∧ Stale party history

/-- The dataset and the mutations, as long as no overwrite of a stale copy is under way. -/
structure Good (kind : Party → Kind) (history : List DatasetEvent) (shared : Shared) : Prop where
  /-- While the other does not overwrite, a copy that is not stale is exact. -/
  fresh : ∀ party, (shared.progress party).stage.Open → ¬ Stale party history →
    (shared.progress party.other).stage ≠ .overwriting →
      (shared.progress party).overlapped = false ∧
        ((shared.progress party).stage ≠ .copying → (shared.progress party).copied = shared.source.getD [])
  distinct : (shared.source.getD []).Nodup
  origin : ∀ party index, .recorded party index ∈ shared.source.getD [] → Landed party history
  droppedOrigin : ∀ other party index, Landed other history →
    .recorded party index ∈ shared.deleted kind other → Landed party history
  present : ∀ party, Landed party history → ∀ episode ∈ shared.saved party,
    (∀ other, Landed other history → episode ∉ shared.deleted kind other) → episode ∈ shared.source.getD []
  absent : ∀ party, Landed party history → ∀ episode ∈ shared.deleted kind party, episode ∉ shared.source.getD []

section
variable {kind : Party → Kind} {history : List DatasetEvent} {shared next : Shared} {event : DatasetEvent}

/-- An event that ends no overwrite changes neither the dataset nor a mutation that has landed. -/
theorem Good.quiet (good : Good kind history shared)
    (accounted : ∀ party, Accounted (kind party) party history (shared.progress party))
    (quiet : ∀ party content, event ≠ .overwriteEnded party content) (source : next.source = shared.source)
    (finished : ∀ party, (shared.progress party).stage = .completed →
      (next.progress party).saved = (shared.progress party).saved ∧
        (next.progress party).copied = (shared.progress party).copied)
    (fresh : ∀ party, (next.progress party).stage.Open → ¬ Stale party history →
      (next.progress party.other).stage ≠ .overwriting →
        (next.progress party).overlapped = false ∧
          ((next.progress party).stage ≠ .copying → (next.progress party).copied = shared.source.getD [])) :
    Good kind (event :: history) next := by
  -- A step that ends no overwrite lands nothing, so what has landed is as before.
  have landed_iff : ∀ party, Landed party (event :: history) ↔ Landed party history :=
    fun party => landed_cons_iff (quiet party)
  have kept_progress := fun party landed => finished party ((accounted party).landed landed)
  have same_deleted : ∀ party, Landed party history → next.deleted kind party = shared.deleted kind party := by
    intro party landed
    simp only [Shared.deleted, (kept_progress party landed).2]
  constructor
  · intro party opened current alone
    rw [source]
    exact fresh party opened (fun stale => current (stale_cons_iff.mpr (.inr stale))) alone
  · rw [source]
    exact good.distinct
  · intro party index
    rw [source, landed_iff]
    exact good.origin party index
  · intro other party index
    rw [landed_iff, landed_iff]
    intro landed
    rw [same_deleted other landed]
    exact good.droppedOrigin other party index landed
  · intro party
    rw [landed_iff, source]
    intro landed episode member kept_by_all
    refine good.present party landed episode ?_ fun other other_landed => ?_
    · rwa [Shared.saved, ← (kept_progress party landed).1]
    · rw [← same_deleted other other_landed]
      exact kept_by_all other ((landed_iff other).mpr other_landed)
  · intro party
    rw [landed_iff, source]
    intro landed
    rw [same_deleted party landed]
    exact good.absent party landed

theorem good_copyBegan {actor : Party} (good : Good kind history shared)
    (accounted : ∀ party, Accounted (kind party) party history (shared.progress party))
    (step : mutate kind shared (.copyBegan actor) = some next) : Good kind (.copyBegan actor :: history) next := by
  simp only [mutate] at step
  split at step <;> cases step
  rename_i waiting
  refine good.quiet accounted (by simp) rfl (fun party finished => ?_) fun party => ?_
  · rcases actor.eq_or_other party with rfl | rfl <;> simp
  · rcases actor.eq_or_other party with rfl | rfl
    · intro _ _ alone
      rw [Shared.set_other] at alone
      simp [alone]
    · rw [Shared.set_other]
      intro opened current _
      exact good.fresh actor.other opened current (by simp [waiting])

theorem good_copyEnded {actor : Party} {content : Content} (good : Good kind history shared)
    (accounted : ∀ party, Accounted (kind party) party history (shared.progress party))
    (step : mutate kind shared (.copyEnded actor content) = some next) :
    Good kind (.copyEnded actor content :: history) next := by
  simp only [mutate] at step
  split at step
  · rename_i copying
    have exact_copy : ¬ Stale actor history → (shared.progress actor.other).stage ≠ .overwriting →
        (shared.progress actor).overlapped = false ∧ content = shared.source := by
      intro current alone
      have clean := (good.fresh actor (.inl copying.1) current alone).1
      exact ⟨clean, copying.2.resolve_left (by simp [clean])⟩
    split at step <;> cases step
    all_goals
      refine good.quiet accounted (by simp) rfl (fun party finished => ?_) fun party => ?_
      · rcases actor.eq_or_other party with rfl | rfl
        · simp [copying.1] at finished
        · simp
      · rcases actor.eq_or_other party with rfl | rfl
        · intro _ current alone
          rw [Shared.set_other] at alone
          obtain ⟨clean, same⟩ := exact_copy current alone
          simp [clean, ← same]
        · rw [Shared.set_other]
          intro opened current _
          exact good.fresh actor.other opened current (by simp [copying.1])
  · cases step

theorem good_episodeSaved {actor : Party} {landed : Bool} (good : Good kind history shared)
    (accounted : ∀ party, Accounted (kind party) party history (shared.progress party))
    (step : mutate kind shared (.episodeSaved actor landed) = some next) :
    Good kind (.episodeSaved actor landed :: history) next := by
  simp only [mutate] at step
  split at step
  · rename_i saving
    split at step <;> cases step
    all_goals
      refine good.quiet accounted (by simp) rfl (fun party finished => ?_) fun party => ?_
      · rcases actor.eq_or_other party with rfl | rfl
        · simp [saving.1] at finished
        · simp
      · rcases actor.eq_or_other party with rfl | rfl
        · rw [Shared.set_same, Shared.set_other]
          exact good.fresh party
        · rw [Shared.set_other]
          intro opened current _
          exact good.fresh actor.other opened current (by simp [saving.1])
  · cases step

theorem good_overwriteBegan {actor : Party} (good : Good kind history shared)
    (accounted : ∀ party, Accounted (kind party) party history (shared.progress party))
    (step : mutate kind shared (.overwriteBegan actor) = some next) :
    Good kind (.overwriteBegan actor :: history) next := by
  simp only [mutate] at step
  split at step <;> cases step
  rename_i mutated
  have others := Shared.set_other (shared.set actor { shared.progress actor with
    stage := .overwriting, overlapped := (shared.progress actor.other).stage = .overwriting }) actor.other
    { shared.progress actor.other with overlapped := true }
  rw [Party.other_other, Shared.set_same] at others
  refine good.quiet accounted (by simp) rfl (fun party finished => ?_) fun party => ?_
  · rcases actor.eq_or_other party with rfl | rfl
    · simp [mutated.1] at finished
    · simp
  · rcases actor.eq_or_other party with rfl | rfl
    · rw [others, Shared.set_same]
      intro _ current alone
      refine ⟨by simpa using alone, fun _ => ?_⟩
      exact (good.fresh party (.inr (.inl mutated.1)) current alone).2 (by simp [mutated.1])
    · intro _ _ alone
      rw [Party.other_other, others] at alone
      exact absurd rfl alone

theorem good_closed {actor : Party} (good : Good kind history shared)
    (accounted : ∀ party, Accounted (kind party) party history (shared.progress party))
    (step : mutate kind shared (.closed actor) = some next) : Good kind (.closed actor :: history) next := by
  simp only [mutate] at step
  split at step <;> cases step
  rename_i unmutated
  refine good.quiet accounted (by simp) rfl (fun party finished => ?_) fun party => ?_
  · rcases actor.eq_or_other party with rfl | rfl <;> simp
  · rcases actor.eq_or_other party with rfl | rfl
    · simp [Stage.Open]
    · rw [Shared.set_other]
      intro opened current _
      exact good.fresh actor.other opened current (by simp [unmutated.1])

end

theorem mem_edited {kind : Kind} {copied saved : List Episode} {episode : Episode}
    (member : episode ∈ edited kind copied saved) : episode ∈ copied ∨ episode ∈ saved := by
  cases kind with
  | recording => exact List.mem_append.mp member
  | deletion indices => exact .inl ((kept_sublist indices copied).subset member)

theorem Accounted.mem_saved {kind : Kind} {party : Party} {history : List DatasetEvent} {progress : Progress}
    (accounted : Accounted kind party history progress) {episode : Episode} (member : episode ∈ progress.saved) :
    ∃ index, episode = .recorded party index := by
  rw [accounted.recorded, List.mem_map] at member
  obtain ⟨index, -, same⟩ := member
  exact ⟨index, same.symm⟩

section
variable {kind : Party → Kind} {history : List DatasetEvent} {shared next : Shared} {actor : Party}
  {content : Content}

theorem overwriteEnded_cases (good : Good kind history shared)
    (accounted : ∀ party, Accounted (kind party) party history (shared.progress party))
    (current : ¬ Stale actor history) (alone : (shared.progress actor.other).stage ≠ .overwriting)
    (step : mutate kind shared (.overwriteEnded actor content) = some next) :
    (shared.progress actor).copied = shared.source.getD [] ∧ ¬ Landed actor history ∧
      next = { shared.set actor { shared.progress actor with stage := .completed } with source := content } ∧
      content.getD [] = edited (kind actor) (shared.source.getD []) (shared.saved actor) := by
  simp only [mutate] at step
  split at step <;> cases step
  rename_i overwriting
  obtain ⟨clean, copied⟩ := good.fresh actor (.inr (.inr overwriting.1)) current alone
  have copied := copied (by simp [overwriting.1])
  refine ⟨copied, fun landed => ?_, rfl, ?_⟩
  · have completed := (accounted actor).landed landed
    rw [overwriting.1] at completed
    cases completed
  · rw [overwriting.2.resolve_left (by simp [clean]), written_getD,
      (accounted actor).cached (.inr overwriting.1), copied, Shared.saved]

theorem edited_nodup (good : Good kind history shared)
    (accounted : Accounted (kind actor) actor history (shared.progress actor))
    (unlanded : ¬ Landed actor history) :
    (edited (kind actor) (shared.source.getD []) (shared.saved actor)).Nodup := by
  cases kind actor with
  | deletion indices => exact (kept_sublist indices _).nodup good.distinct
  | recording =>
    refine List.nodup_append.mpr ⟨good.distinct, ?_, ?_⟩
    · rw [Shared.saved, accounted.recorded]
      exact List.nodup_range.map (fun one two same => (Episode.recorded.inj same).2)
    · rintro episode member _ saved rfl
      obtain ⟨index, rfl⟩ := accounted.mem_saved saved
      exact unlanded (good.origin actor index member)

theorem good_overwriteEnded (good : Good kind history shared)
    (accounted : ∀ party, Accounted (kind party) party history (shared.progress party))
    (current : ¬ Stale actor history) (alone : (shared.progress actor.other).stage ≠ .overwriting)
    (step : mutate kind shared (.overwriteEnded actor content) = some next) :
    Good kind (.overwriteEnded actor content :: history) next := by
  obtain ⟨copied, unlanded, rfl, result⟩ := overwriteEnded_cases good accounted current alone step
  have landed_here : Landed actor (.overwriteEnded actor content :: history) := ⟨content, List.mem_cons_self⟩
  have landed_cases : ∀ party, Landed party (.overwriteEnded actor content :: history) →
      party = actor ∨ Landed party history := by
    rintro party ⟨other, member⟩
    rcases List.mem_cons.mp member with same | member
    · exact .inl (DatasetEvent.overwriteEnded.inj same).1
    · exact .inr ⟨other, member⟩
  -- Only the stage changes, so what each mutation saved and deleted is the same before and after.
  have saved : ∀ party, Shared.saved { shared.set actor { shared.progress actor with stage := .completed }
      with source := content } party = shared.saved party := by
    intro party
    rcases actor.eq_or_other party with rfl | rfl
    · simp [Shared.saved]
    · simp [Shared.saved]
  have deleted : ∀ party, Shared.deleted kind { shared.set actor { shared.progress actor with
      stage := .completed } with source := content } party = shared.deleted kind party := by
    intro party
    rcases actor.eq_or_other party with rfl | rfl
    · simp [Shared.deleted]
    · simp [Shared.deleted]
  constructor
  · intro party
    rcases actor.eq_or_other party with rfl | rfl
    · simp [Stage.Open]
    · rw [Shared.set_other]
      intro opened fresh
      have begun : (shared.progress actor.other).stage ≠ .waiting := by
        rcases opened with at_copy | at_edit | at_overwrite <;> simp [*]
      have stale : Stale actor.other (.overwriteEnded actor content :: history) :=
        stale_cons_iff.mpr (.inl ⟨⟨content, by rw [Party.other_other]⟩, (accounted actor.other).began begun⟩)
      exact absurd stale fresh
  · show (content.getD []).Nodup
    rw [result]
    exact edited_nodup good (accounted actor) unlanded
  · intro party index member
    replace member : .recorded party index ∈ content.getD [] := member
    rw [result] at member
    rcases mem_edited member with old | new
    · exact (good.origin party index old).cons _
    · obtain ⟨_, same⟩ := (accounted actor).mem_saved new
      cases same
      exact landed_here
  · intro other party index landed
    rw [deleted]
    intro member
    rcases landed_cases other landed with rfl | before
    · refine (good.origin party index ?_).cons _
      rw [← copied]
      unfold Shared.deleted at member
      split at member
      · cases member
      · exact dropped_subset _ _ _ member
    · exact (good.droppedOrigin other party index before member).cons _
  · intro party landed episode
    rw [saved]
    intro member kept_by_all
    show episode ∈ content.getD []
    rw [result]
    have kept_by := fun other landed => deleted other ▸ kept_by_all other landed
    rcases landed_cases party landed with rfl | before
    · cases same : kind party with
      | recording => exact List.mem_append_right _ member
      | deletion indices =>
        rw [Shared.saved, (accounted party).saves (by simp [same])] at member
        cases member
    · have old := good.present party before episode member fun other other_landed => kept_by other (other_landed.cons _)
      have kept_here := kept_by actor landed_here
      unfold Shared.deleted at kept_here
      cases same : kind actor with
      | recording => exact List.mem_append_left _ old
      | deletion indices =>
        rw [same, copied] at kept_here
        exact (kept_or_dropped indices old).resolve_right kept_here
  · intro party landed episode
    rw [deleted]
    intro out
    show episode ∉ content.getD []
    rw [result]
    rcases landed_cases party landed with rfl | before
    · unfold Shared.deleted at out
      cases same : kind party with
      | recording => simp [same] at out
      | deletion indices =>
        rw [same, copied] at out
        exact not_kept_of_dropped good.distinct out
    · intro member
      rcases mem_edited member with old | new
      · exact good.absent party before episode out old
      · obtain ⟨index, rfl⟩ := (accounted actor).mem_saved new
        exact unlanded (good.droppedOrigin party actor index before out)

end

section
variable {kind : Party → Kind} {history : List DatasetEvent} {shared next : Shared} {event : DatasetEvent}

theorem mutate_overwriting {party : Party} (overwriting : (shared.progress party).stage = .overwriting)
    (step : mutate kind shared event = some next) (going : ∀ content, event ≠ .overwriteEnded party content) :
    (next.progress party).stage = .overwriting := by
  cases event with
  | copyBegan actor =>
    simp only [mutate] at step
    split at step <;> cases step
    rcases actor.eq_or_other party with rfl | rfl
    · simp_all
    · rwa [Shared.set_other]
  | copyEnded actor content =>
    simp only [mutate] at step
    split at step
    · rename_i copying
      split at step <;> cases step
      all_goals
        rcases actor.eq_or_other party with rfl | rfl
        · simp_all
        · rwa [Shared.set_other]
    · cases step
  | episodeSaved actor landed =>
    simp only [mutate] at step
    split at step
    · split at step <;> cases step
      all_goals
        rcases actor.eq_or_other party with rfl | rfl
        · simp_all
        · rwa [Shared.set_other]
    · cases step
  | overwriteBegan actor =>
    simp only [mutate] at step
    split at step <;> cases step
    rcases actor.eq_or_other party with rfl | rfl
    · simp_all
    · rwa [Shared.set_same]
  | overwriteEnded actor content =>
    simp only [mutate] at step
    split at step <;> cases step
    rcases actor.eq_or_other party with rfl | rfl
    · exact absurd rfl (going content)
    · rwa [Shared.set_other]
  | closed actor =>
    simp only [mutate] at step
    split at step <;> cases step
    rcases actor.eq_or_other party with rfl | rfl
    · simp_all
    · rwa [Shared.set_other]

theorem mutate_good_or_doomed
    (accounted : ∀ party, Accounted (kind party) party history (shared.progress party))
    (current : ∀ party content, event = .overwriteEnded party content → ¬ Stale party history)
    (before : Good kind history shared ∨ Doomed history shared) (step : mutate kind shared event = some next) :
    Good kind (event :: history) next ∨ Doomed (event :: history) next := by
  rcases before with good | ⟨party, overwriting, stale⟩
  · cases event with
    | copyBegan actor => exact .inl (good_copyBegan good accounted step)
    | copyEnded actor content => exact .inl (good_copyEnded good accounted step)
    | episodeSaved actor landed => exact .inl (good_episodeSaved good accounted step)
    | overwriteBegan actor => exact .inl (good_overwriteBegan good accounted step)
    | closed actor => exact .inl (good_closed good accounted step)
    | overwriteEnded actor content =>
      by_cases alone : (shared.progress actor.other).stage = .overwriting
      · -- Both overwrite at once: the other can only end with a stale copy.
        have begun := (accounted actor.other).began (by simp [alone])
        refine .inr ⟨actor.other, mutate_overwriting alone step fun other same => ?_,
          stale_cons_iff.mpr (.inl ⟨⟨content, by rw [Party.other_other]⟩, begun⟩)⟩
        exact actor.other_ne (DatasetEvent.overwriteEnded.inj same).1.symm
      · exact .inl (good_overwriteEnded good accounted (current actor content rfl) alone step)
  · have going : ∀ content, event ≠ .overwriteEnded party content :=
      fun content same => current party content same stale
    exact .inr ⟨party, mutate_overwriting overwriting step going, stale_cons_iff.mpr (.inr stale)⟩

end

theorem mutated_good_or_doomed (kind : Party → Kind) (episodes : Option Nat) {history : List DatasetEvent}
    {shared : Shared} (ran : mutated kind episodes history = some shared) (fresh : FreshCopies history) :
    Good kind history shared ∨ Doomed history shared := by
  induction history generalizing shared with
  | nil =>
    cases ran
    refine .inl ⟨?_, ?_, ?_, ?_, ?_, ?_⟩
    · intro party opened
      simp [Stage.Open, untouched] at opened
    · cases episodes with
      | none => simp [untouched]
      | some count => exact List.nodup_range.map (fun one two same => Episode.existing.inj same)
    · cases episodes <;> simp [untouched]
    · rintro other party index ⟨content, ⟨⟩⟩
    · rintro party ⟨content, ⟨⟩⟩
    · rintro party ⟨content, ⟨⟩⟩
  | cons event older ih =>
    obtain ⟨before, ran, step⟩ := Option.bind_eq_some_iff.mp ran
    exact mutate_good_or_doomed (fun party => mutated_accounted kind episodes ran party) fresh.1
      (ih ran fresh.2) step

/-- If each overwrite puts back a copy begun after the other's overwrite, the dataset has both effects once both
mutations have completed, in whatever order they took their steps. -/
theorem both_effects_of_fresh_copies (kind : Party → Kind) (episodes : Option Nat) (history : List DatasetEvent)
    (shared : Shared) (ran : mutated kind episodes history = some shared)
    (completed : ∀ party, (shared.progress party).stage = .completed) (fresh : FreshCopies history) :
    HasBothEffects kind shared := by
  rcases mutated_good_or_doomed kind episodes ran fresh with good | ⟨party, overwriting, -⟩
  · have accounted := fun party => mutated_accounted kind episodes ran party
    constructor
    · intro party episode member kept_by_all
      refine good.present party ?_ episode member fun other _ => kept_by_all other
      by_contra unlanded
      rw [Shared.saved, ((accounted party).unlanded (completed party) unlanded).1] at member
      cases member
    · intro party episode out
      refine good.absent party ?_ episode out
      by_contra unlanded
      simp [Shared.deleted, ((accounted party).unlanded (completed party) unlanded).2] at out
  · rw [completed party] at overwriting
    cases overwriting

def recordAndDelete : Party → Kind
  | .one => .recording
  | .two => .deletion [0]

def deletedMeanwhile : List DatasetEvent :=
  let before := [Episode.existing 0, .existing 1]
  let recorded := before ++ [.recorded .one 0]
  [.overwriteEnded .one (some recorded), .overwriteBegan .one, .overwriteEnded .two (some [.existing 1]),
    .overwriteBegan .two, .copyEnded .two (some before), .copyBegan .two, .episodeSaved .one true,
    .copyEnded .one (some before), .copyBegan .one]

def deletedAfterwards : List DatasetEvent :=
  let before := [Episode.existing 0, .existing 1]
  let recorded := before ++ [.recorded .one 0]
  [.overwriteEnded .two (some [.existing 1, .recorded .one 0]), .overwriteBegan .two, .copyEnded .two (some recorded),
    .copyBegan .two, .overwriteEnded .one (some recorded), .overwriteBegan .one, .episodeSaved .one true,
    .copyEnded .one (some before), .copyBegan .one]

theorem both_effects_recorded_then_deleted :
    ∃ shared, mutated recordAndDelete (some 2) deletedAfterwards = some shared ∧ HasBothEffects recordAndDelete shared := by
  have runs : (mutated recordAndDelete (some 2) deletedAfterwards).isSome := by decide
  refine ⟨_, (Option.some_get runs).symm, both_effects_of_fresh_copies recordAndDelete (some 2) deletedAfterwards _
    (Option.some_get runs).symm (fun party => ?_) ?_⟩
  · cases party <;> rfl
  · simp [FreshCopies, deletedAfterwards, Party.other]

/-- The recording, torn down last, puts the deleted episode back. -/
theorem deleted_episode_returns :
    ¬ ∀ (kind : Party → Kind) (episodes : Option Nat) (history : List DatasetEvent) (shared : Shared),
      mutated kind episodes history = some shared → (∀ party, (shared.progress party).stage = .completed) →
        HasBothEffects kind shared := by
  intro every
  have both := every recordAndDelete (some 2) deletedMeanwhile
    ((mutated recordAndDelete (some 2) deletedMeanwhile).get (by decide)) (Option.some_get _).symm
    (fun party => by cases party <;> rfl)
  exact both.2 .two (.existing 0) (by decide) (by decide)

end PhysicalAiStudio.Datasets
