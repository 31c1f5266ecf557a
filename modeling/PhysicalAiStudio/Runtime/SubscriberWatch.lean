import Mathlib.Data.List.Destutter
import PhysicalAiStudio.Concurrency.History
import PhysicalAiStudio.Runtime.Contract

/-! The thread that holds the arm and commits the recording when the last
subscriber leaves, and ends the session after an idle time.

A poll is driven by a reading: what `has_matching_subscribers` answers, what it
would answer to a re-check at the idle deadline, the two clocks, and whether
`apply` and `finalize_recording` raise. The clocks are any type with the
operations the loop uses, so that no law of their arithmetic is assumed.
Readings and rounds are kept newest first.
-/

set_option autoImplicit false

namespace PhysicalAiStudio.Runtime

open Concurrency

structure Reading (Time : Type) where
  subscribers : Bool
  recheck : Bool
  monotonic : Time
  wall : Time
  applyRaises : Bool := false
  finalizeRaises : Bool := false

inductive WatchEvent (Time : Type) where
  | updatedMetadata (attached : Bool) (idleDeadline : Option Time)
  | applied (command : Command) (raised : Bool)
  | finalizedRecording (raised : Bool)
  | emittedShutdown (reason : String)
  | setStop
  deriving DecidableEq

/-- The local variables of the loop. -/
structure WatchState (Time : Type) where
  subscribersPresent : Bool := true
  idleSince : Option Time := none
  publishedAttached : Option Bool := some true
  deriving DecidableEq

structure Round (Time : Type) where
  reading : Reading Time
  observed : List Bool
  events : List (WatchEvent Time)

variable {Time : Type}

def loseSubscribers (state : WatchState Time) (reading : Reading Time) : List (WatchEvent Time) :=
  if state.subscribersPresent then
    [.applied (.setFollowerSource .hold) reading.applyRaises, .finalizedRecording reading.finalizeRaises]
  else []

/-- The watcher is started once a subscriber matched. What the last round saw
after its poll is answered with the next poll. -/
def observedSince : List (Round Time) → Bool × List Bool
  | [] => (true, [])
  | last :: _ => (last.reading.subscribers, last.observed.tail)

def WatchEvent.isResponse : WatchEvent Time → Bool
  | .updatedMetadata .. | .applied .. | .finalizedRecording .. => true
  | .emittedShutdown .. | .setStop => false

def idleStart (readings : List (Reading Time)) : Option (Reading Time) :=
  (readings.takeWhile (!·.subscribers)).getLast?

theorem idleStart_present {reading : Reading Time} (older : List (Reading Time))
    (present : reading.subscribers = true) : idleStart (reading :: older) = none := by
  simp [idleStart, present]

theorem idleStart_absent {reading : Reading Time} (older : List (Reading Time))
    (absent : reading.subscribers = false) :
    idleStart (reading :: older) = some ((idleStart older).getD reading) := by
  simp [idleStart, absent, List.getLast?_cons]

variable [Add Time] [Sub Time] [LT Time] [DecidableLT Time]

/-- One iteration of `_watch_subscribers`; no state is left once it set `stop`. -/
def watchRound (idleTimeout : Time) (state : WatchState Time) (reading : Reading Time) :
    Round Time × Option (WatchState Time) :=
  if reading.subscribers then
    (⟨reading, [true], if state.publishedAttached ≠ some true then [.updatedMetadata true none] else []⟩,
      some { subscribersPresent := true, idleSince := none, publishedAttached := some true })
  else
    let lost := loseSubscribers state reading
    let now := reading.monotonic
    match state.idleSince with
    | none =>
      (⟨reading, [false], lost ++
          if state.publishedAttached ≠ some false then
            [.updatedMetadata false (some (reading.wall + idleTimeout))] else []⟩,
        some { subscribersPresent := false, idleSince := some now, publishedAttached := some false })
    | some idleSince =>
      if now - idleSince > idleTimeout then
        -- The re-check clears the deadline only: the other two variables keep saying "absent".
        if reading.recheck then
          (⟨reading, [false, true], lost⟩, some { state with subscribersPresent := false, idleSince := none })
        else (⟨reading, [false, false], lost ++ [.emittedShutdown "idle_timeout", .setStop]⟩, none)
      else (⟨reading, [false], lost⟩, some { state with subscribersPresent := false })

def watchSubscribers (idleTimeout : Time) : List (Reading Time) → List (Round Time) × Option (WatchState Time)
  | [] => ([], some {})
  | reading :: older =>
    match watchSubscribers idleTimeout older with
    | (rounds, none) => (rounds, none)
    | (rounds, some state) =>
      ((watchRound idleTimeout state reading).1 :: rounds, (watchRound idleTimeout state reading).2)

def changes (last : Bool) (answers : List Bool) : List Bool :=
  (answers.destutter' (· ≠ ·) last).tail

def owed (idleTimeout : Time) (reading : Reading Time) : Bool → List (WatchEvent Time)
  | true => [.updatedMetadata true none]
  | false => [.applied (.setFollowerSource .hold) reading.applyRaises, .finalizedRecording reading.finalizeRaises,
      .updatedMetadata false (some (reading.wall + idleTimeout))]

/-- A round answers every change observed since the previous poll once, in order, and does no more. -/
def AnswersChanges (idleTimeout : Time) (past : List (Round Time)) (round : Round Time) : Prop :=
  round.events.filter WatchEvent.isResponse =
    (changes (observedSince past).1 ((observedSince past).2 ++ [round.reading.subscribers])).flatMap
      (owed idleTimeout round.reading)

/-- `stop` is set at the end of a period longer than the timeout, all of whose rounds observed no subscriber. -/
def StopsIdle (idleTimeout : Time) (past : List (Round Time)) (round : Round Time) : Prop :=
  .setStop ∈ round.events →
    ∃ idle start older, past = idle ++ start :: older ∧
      (∀ one ∈ round :: idle ++ [start], ∀ answer ∈ one.observed, answer = false) ∧
      round.reading.monotonic - start.reading.monotonic > idleTimeout

def Overdue (idleTimeout : Time) (older : List (Reading Time)) (reading : Reading Time) : Prop :=
  reading.subscribers = false ∧ ∃ start ∈ idleStart older, reading.monotonic - start.monotonic > idleTimeout

def StaysUp (idleTimeout : Time) (readings : List (Reading Time)) : Prop :=
  Always (fun older reading => Overdue idleTimeout older reading → reading.recheck = true) readings

/-- A subscriber that the re-check at a deadline sees is still there at the next poll. -/
def ReturnsLast (idleTimeout : Time) (readings : List (Reading Time)) : Prop :=
  Always (fun older reading => ∀ last before, older = last :: before →
    StaysUp idleTimeout older → Overdue idleTimeout before last → reading.subscribers = true) readings

/-! ### The period before a stop -/

def CountsDown (past : List (Round Time)) (state : WatchState Time) : Prop :=
  ∀ since, state.idleSince = some since → ∃ idle start older, past = idle ++ start :: older ∧
    (∀ one ∈ idle ++ [start], ∀ answer ∈ one.observed, answer = false) ∧ start.reading.monotonic = since

theorem watchRound_idle (idleTimeout : Time) {past : List (Round Time)} {state : WatchState Time}
    (counts : CountsDown past state) (reading : Reading Time) :
    StopsIdle idleTimeout past (watchRound idleTimeout state reading).1 ∧
      ∀ next, (watchRound idleTimeout state reading).2 = some next →
        CountsDown ((watchRound idleTimeout state reading).1 :: past) next := by
  have quiet : .setStop ∉ loseSubscribers state reading := by
    unfold loseSubscribers; split <;> simp
  unfold watchRound
  split
  · refine ⟨fun stopped => ?_, ?_⟩
    · dsimp only at stopped; split at stopped <;> simp at stopped
    · rintro next ⟨⟩ since ⟨⟩
  · cases idle : state.idleSince with
    | none =>
      refine ⟨fun stopped => ?_, ?_⟩
      · simp only [List.mem_append, quiet, false_or] at stopped
        split at stopped <;> simp at stopped
      · rintro next ⟨⟩ since ⟨⟩
        exact ⟨[], _, past, rfl, by simp, rfl⟩
    | some since =>
      -- The countdown began with the first reading without subscribers, and all since were without.
      obtain ⟨waited, start, older, same, absent, started⟩ := counts since idle
      dsimp only
      split
      · rename_i late
        split
        · exact ⟨fun stopped => absurd stopped quiet, by rintro next ⟨⟩ since ⟨⟩⟩
        · refine ⟨fun _ => ⟨waited, start, older, same, ?_, started ▸ late⟩, by rintro next ⟨⟩⟩
          intro one member
          rcases List.mem_cons.mp member with rfl | member
          · simp
          · exact absent one member
      · refine ⟨fun stopped => absurd stopped quiet, ?_⟩
        rintro next ⟨⟩ since' kept
        cases kept
        refine ⟨_ :: waited, start, older, congrArg (_ :: ·) same, ?_, started⟩
        intro one member
        rcases List.mem_cons.mp member with rfl | member
        · simp
        · exact absent one member

theorem watchSubscribers_idle (idleTimeout : Time) (readings : List (Reading Time)) :
    Always (StopsIdle idleTimeout) (watchSubscribers idleTimeout readings).1 ∧
      ∀ state, (watchSubscribers idleTimeout readings).2 = some state →
        CountsDown (watchSubscribers idleTimeout readings).1 state := by
  induction readings with
  | nil => exact ⟨trivial, by rintro state ⟨⟩ since ⟨⟩⟩
  | cons reading older ih =>
    obtain ⟨always, counts⟩ := ih
    unfold watchSubscribers
    rcases watched : watchSubscribers idleTimeout older with ⟨rounds, _ | state⟩
    · rw [watched] at always
      exact ⟨always, by rintro state ⟨⟩⟩
    · rw [watched] at always counts
      obtain ⟨stops, next⟩ := watchRound_idle idleTimeout (counts state rfl) reading
      exact ⟨⟨stops, always⟩, next⟩

/-! ### The loop's variables and its readings -/

/-- How the loop's variables stand after the readings, as long as no returning subscriber was missed. -/
inductive Mirrors (idleTimeout : Time) :
    List (Reading Time) → List (Round Time) → WatchState Time → Prop
  | start : Mirrors idleTimeout [] [] {}
  | present {last : Reading Time} {older : List (Reading Time)} {rounds : List (Round Time)}
      (present : last.subscribers = true) (observed : observedSince rounds = (true, [])) :
      Mirrors idleTimeout (last :: older) rounds ⟨true, none, some true⟩
  | absent {last start : Reading Time} {older : List (Reading Time)} {rounds : List (Round Time)}
      (since : idleStart (last :: older) = some start) (early : ¬ Overdue idleTimeout older last)
      (observed : observedSince rounds = (false, [])) :
      Mirrors idleTimeout (last :: older) rounds ⟨false, some start.monotonic, some false⟩
  | returned {last : Reading Time} {older : List (Reading Time)} {rounds : List (Round Time)}
      (late : Overdue idleTimeout older last) (observed : observedSince rounds = (false, [true])) :
      Mirrors idleTimeout (last :: older) rounds ⟨false, none, some false⟩

theorem mirrors_answers {idleTimeout : Time} {older : List (Reading Time)} {past : List (Round Time)}
    {state : WatchState Time} (mirrors : Mirrors idleTimeout older past state) (reading : Reading Time) :
    AnswersChanges idleTimeout past (watchRound idleTimeout state reading).1 ↔
      ∀ last before, older = last :: before → Overdue idleTimeout before last → reading.subscribers = true := by
  cases mirrors with
  | start =>
    refine ⟨by rintro _ last before ⟨⟩, fun _ => ?_⟩
    cases polled : reading.subscribers <;>
      simp [AnswersChanges, watchRound, polled, observedSince, changes, List.destutter', owed, loseSubscribers, WatchEvent.isResponse]
  | @present last before rounds present observed =>
    refine ⟨?_, fun _ => ?_⟩
    · rintro _ last before ⟨⟩ ⟨absent, -⟩
      simp [present] at absent
    · cases polled : reading.subscribers <;>
        simp [AnswersChanges, watchRound, polled, observed, changes, List.destutter', owed, loseSubscribers, WatchEvent.isResponse]
  | @absent last start before rounds since early observed =>
    refine ⟨?_, fun _ => ?_⟩
    · rintro _ last before ⟨⟩ late
      exact absurd late early
    · cases polled : reading.subscribers with
      | true => simp [AnswersChanges, watchRound, polled, observed, changes, List.destutter', owed, WatchEvent.isResponse]
      | false =>
        by_cases late : reading.monotonic - start.monotonic > idleTimeout <;>
          cases answer : reading.recheck <;>
          simp [AnswersChanges, watchRound, polled, late, answer, observed, changes, List.destutter', loseSubscribers,
            WatchEvent.isResponse]
  | @returned last before rounds late observed =>
    -- The re-check left the loop's variables at "absent": a second absence is no change to them.
    constructor
    · intro answers last before same late'
      by_contra gone
      simp [AnswersChanges, watchRound, gone, observed, changes, List.destutter', owed, loseSubscribers] at answers
    · intro kept
      have back : reading.subscribers = true := kept last before rfl late
      simp [AnswersChanges, watchRound, back, observed, changes, List.destutter', owed, WatchEvent.isResponse]

theorem mirrors_poll {idleTimeout : Time} {older : List (Reading Time)} {past : List (Round Time)}
    {state : WatchState Time} (mirrors : Mirrors idleTimeout older past state) (reading : Reading Time)
    (kept : ∀ last before, older = last :: before → Overdue idleTimeout before last → reading.subscribers = true) :
    ((Overdue idleTimeout older reading → reading.recheck = true) ∧
      ∃ next, (watchRound idleTimeout state reading).2 = some next ∧
        Mirrors idleTimeout (reading :: older) ((watchRound idleTimeout state reading).1 :: past) next) ∨
    (¬ (Overdue idleTimeout older reading → reading.recheck = true) ∧
      (watchRound idleTimeout state reading).2 = none) := by
  cases polled : reading.subscribers with
  | true =>
    refine .inl ⟨fun late => absurd late.1 (by simp [polled]), ⟨true, none, some true⟩, ?_, ?_⟩
    · simp [watchRound, polled]
    · exact .present polled (by simp [watchRound, polled, observedSince])
  | false =>
    -- Where the loop stands is given by the last reading: whether it had subscribers, was late, or was rescued.
    cases mirrors with
    | start =>
      have early : ¬ Overdue idleTimeout [] reading := by simp [Overdue, idleStart]
      refine .inl ⟨fun late => absurd late early, ⟨false, some reading.monotonic, some false⟩, ?_, ?_⟩
      · simp [watchRound, polled]
      · exact .absent (by simp [idleStart, polled]) early (by simp [watchRound, polled, observedSince])
    | @present last before rounds present observed =>
      have early : ¬ Overdue idleTimeout (last :: before) reading := by
        simp [Overdue, idleStart_present before present]
      refine .inl ⟨fun late => absurd late early, ⟨false, some reading.monotonic, some false⟩, ?_, ?_⟩
      · simp [watchRound, polled]
      · refine .absent ?_ early (by simp [watchRound, polled, observedSince])
        rw [idleStart_absent _ polled, idleStart_present before present, Option.getD_none]
    | @absent last start before rounds since early observed =>
      have late_iff : Overdue idleTimeout (last :: before) reading ↔
          reading.monotonic - start.monotonic > idleTimeout := by
        simp [Overdue, polled, since]
      by_cases late : reading.monotonic - start.monotonic > idleTimeout
      · cases answer : reading.recheck with
        | true =>
          refine .inl ⟨fun _ => rfl, ⟨false, none, some false⟩, ?_, ?_⟩
          · simp [watchRound, polled, late, answer]
          · exact .returned (late_iff.mpr late) (by simp [watchRound, polled, late, answer, observedSince])
        | false =>
          refine .inr ⟨fun safe => Bool.false_ne_true (safe (late_iff.mpr late)), ?_⟩
          simp [watchRound, polled, late, answer]
      · have early' : ¬ Overdue idleTimeout (last :: before) reading := fun overdue => late (late_iff.mp overdue)
        refine .inl ⟨fun overdue => absurd overdue early', ⟨false, some start.monotonic, some false⟩, ?_, ?_⟩
        · simp [watchRound, polled, late]
        · refine .absent ?_ early' (by simp [watchRound, polled, late, observedSince])
          rw [idleStart_absent _ polled, since, Option.getD_some]
    | @returned last before rounds late observed =>
      exact absurd (kept last before rfl late) (by simp [polled])

theorem watchSubscribers_mirrors (idleTimeout : Time) (readings : List (Reading Time))
    (returns : ReturnsLast idleTimeout readings) :
    (StaysUp idleTimeout readings ∧ ∃ state, (watchSubscribers idleTimeout readings).2 = some state ∧
        Mirrors idleTimeout readings (watchSubscribers idleTimeout readings).1 state) ∨
      (¬ StaysUp idleTimeout readings ∧ (watchSubscribers idleTimeout readings).2 = none) := by
  induction readings with
  | nil => exact .inl ⟨trivial, {}, rfl, .start⟩
  | cons reading older ih =>
    rcases watched : watchSubscribers idleTimeout older with ⟨rounds, standing⟩
    rw [watched] at ih
    rcases ih returns.2 with ⟨up, state, running, mirrors⟩ | ⟨down, ended⟩
    · cases running
      have kept := fun last before same late => returns.1 last before same up late
      simp only [watchSubscribers, watched]
      rcases mirrors_poll mirrors reading kept with ⟨safe, next⟩ | ⟨exits, ended⟩
      · exact .inl ⟨⟨safe, up⟩, next⟩
      · exact .inr ⟨fun stays => exits stays.1, ended⟩
    · cases ended
      simp only [watchSubscribers, watched]
      exact .inr ⟨fun stays => down stays.2, trivial⟩

theorem answers_iff (idleTimeout : Time) (readings : List (Reading Time)) :
    Always (AnswersChanges idleTimeout) (watchSubscribers idleTimeout readings).1 ↔
      ReturnsLast idleTimeout readings := by
  induction readings with
  | nil => exact Iff.rfl
  | cons reading older ih =>
    rcases watched : watchSubscribers idleTimeout older with ⟨rounds, standing⟩
    rw [watched] at ih
    by_cases returns : ReturnsLast idleTimeout older
    · rcases watchSubscribers_mirrors idleTimeout older returns with ⟨up, state, running, mirrors⟩ | ⟨down, ended⟩
      · rw [watched] at running mirrors
        cases running
        simp only [watchSubscribers, watched]
        refine and_congr ((mirrors_answers mirrors reading).trans ?_) ih
        exact ⟨fun kept last before same _ => kept last before same,
          fun kept last before same => kept last before same up⟩
      · rw [watched] at ended
        cases ended
        simp only [watchSubscribers, watched]
        exact ih.trans ⟨fun before => ⟨fun _ _ _ up => absurd up down, before⟩, fun after => after.2⟩
    · refine ⟨fun always => absurd (ih.mp ?_) returns, fun after => absurd after.2 returns⟩
      simp only [watchSubscribers, watched] at always
      cases standing with
      | none => exact always
      | some state => exact always.2

/-- The watcher answers every change of its subscribers, and stops only after an idle period, exactly when
no subscriber that returns at a deadline is gone again at the next poll. -/
theorem changes_answered_iff_returns_last (idleTimeout : Time) (readings : List (Reading Time)) :
    Always (fun past round => AnswersChanges idleTimeout past round ∧ StopsIdle idleTimeout past round)
        (watchSubscribers idleTimeout readings).1 ↔
      ReturnsLast idleTimeout readings := by
  rw [← answers_iff]
  exact always_congr (watchSubscribers_idle idleTimeout readings).1
    fun past round stops => ⟨And.left, fun answers => ⟨answers, stops⟩⟩

instance (idleTimeout : Int) (past : List (Round Int)) (round : Round Int) :
    Decidable (AnswersChanges idleTimeout past round) :=
  inferInstanceAs (Decidable (_ = _))

/-- A subscriber that comes at the deadline and leaves again: the arm is not put on hold, the recording
is not finalized and the deadline published before stays. -/
theorem brief_return_unanswered :
    ¬ ∀ (idleTimeout : Int) (readings : List (Reading Int)),
      Always (fun past round => AnswersChanges idleTimeout past round ∧ StopsIdle idleTimeout past round)
        (watchSubscribers idleTimeout readings).1 := by
  intro always
  have last := (always 60 [⟨false, false, 62, 1062, false, false⟩, ⟨false, true, 61, 1061, false, false⟩,
    ⟨false, false, 0, 1000, false, false⟩]).1.1
  revert last
  decide

end PhysicalAiStudio.Runtime
