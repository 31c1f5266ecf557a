import PhysicalAiStudio.Remote.ArtifactDownload

/-! When a finished download holds the bytes of the artifact. -/

set_option autoImplicit false

namespace PhysicalAiStudio.Remote.Artifact
open Strings

/-! ### The blocks of a body -/

theorem blocks_length (chunkSize count : Nat) (body : List UInt8) : (blocks chunkSize count body).length = count := by
  induction count generalizing body with
  | zero => rfl
  | succ count ih => rw [blocks, List.length_cons, ih]

theorem blocks_flatten (chunkSize count : Nat) (body : List UInt8) :
    (blocks chunkSize count body).flatten = body.take (count * chunkSize) := by
  induction count generalizing body with
  | zero => simp [blocks]
  | succ count ih => rw [blocks, List.flatten_cons, ih, Nat.succ_mul, Nat.add_comm, List.take_add]

def delivered (chunkSize : Nat) (broken : Bool) (arriving : Nat) : Nat :=
  if broken then arriving / chunkSize * chunkSize else arriving

@[simp] theorem delivered_whole (chunkSize arriving : Nat) : delivered chunkSize false arriving = arriving :=
  rfl

theorem delivered_le (chunkSize : Nat) (broken : Bool) (arriving : Nat) : delivered chunkSize broken arriving ≤ arriving := by
  cases broken with
  | true => exact Nat.div_mul_le_self arriving chunkSize
  | false => exact le_rfl

theorem delivered_eq {chunkSize : Nat} (positive : 0 < chunkSize) (broken : Bool) (arriving : Nat) :
    min (blockCount chunkSize broken arriving * chunkSize) arriving = delivered chunkSize broken arriving := by
  cases broken with
  | true => exact min_eq_left (Nat.div_mul_le_self arriving chunkSize)
  | false =>
    refine min_eq_right ?_
    have reached := Nat.lt_div_mul_add (a := arriving + chunkSize - 1) positive
    simp only [blockCount, Bool.false_eq_true, if_false]
    omega

theorem aiterBytes_flatten {chunkSize : Nat} (positive : 0 < chunkSize) (response : Response) :
    (aiterBytes chunkSize response).flatten =
      response.body.take (delivered chunkSize response.broken response.body.length) := by
  rw [aiterBytes, blocks_flatten, ← delivered_eq positive, ← List.take_eq_take_min]

theorem readBlocks_eq (body : List (List UInt8)) (stops : List Bool) (st : Download) :
    (readBlocks body stops st).2 = (stops.take body.length).any id ∧
      ((stops.take body.length).any id = false → (readBlocks body stops st).1 =
        { file := st.file ++ body.flatten, received := st.received + body.flatten.length }) := by
  induction body generalizing stops st with
  | nil => simp [readBlocks]
  | cons block rest ih =>
    obtain ⟨stopped, read⟩ := ih stops.tail { file := st.file ++ block, received := st.received + block.length }
    cases stops with
    | nil =>
      rw [List.tail_nil] at stopped read
      simp only [readBlocks, List.headD_nil, Bool.false_eq_true, if_false, List.tail_nil]
      refine ⟨by simpa using stopped, ?_⟩
      intro calm
      rw [read (by simp)]
      simp [Nat.add_assoc]
    | cons told later =>
      cases told with
      | true => simp [readBlocks]
      | false =>
        rw [List.tail_cons] at stopped read
        simp only [readBlocks, List.headD_cons, Bool.false_eq_true, if_false, List.tail_cons]
        refine ⟨by simpa using stopped, ?_⟩
        intro calm
        rw [read (by simpa using calm)]
        simp [Nat.add_assoc]

/-! ### One answer -/

/-- A request for the bytes from an offset on can be answered with a part that ends with `last`. -/
def Satisfiable (total offset last : Nat) : Prop := offset ≠ 0 ∧ offset ≤ last ∧ last < total

instance (total offset last : Nat) : Decidable (Satisfiable total offset last) := inferInstanceAs (Decidable (_ ∧ _ ∧ _))

namespace Plan

def start (offset : Nat) : Plan → Nat
  | .whole .. => 0
  | _ => offset

def given (total offset : Nat) : Plan → Nat
  | .lost => 0
  | .refused => 0
  | .whole _ arriving broken _ => delivered downloadChunkSize broken (min arriving total)
  | .part last _ _ arriving broken _ =>
    if Satisfiable total offset last then delivered downloadChunkSize broken (min arriving (last + 1 - offset)) else 0

def stopped (arriving : Nat) (broken : Bool) (stops : List Bool) : Bool :=
  (stops.take (blockCount downloadChunkSize broken arriving)).any id

def verdict (total offset : Nat) (plan : Plan) : Turn :=
  match plan with
  | .lost => .retried
  | .refused => .retried
  -- A server that does not honour the range answers with the whole archive, which is written from the offset on.
  | .whole lengthTold arriving broken stops =>
    conclude (artifactTotalBytes (wholeHeaders total lengthTold) offset) (stopped (min arriving total) broken stops)
      broken (offset + given total offset plan)
  | .part last totalTold lengthTold arriving broken stops =>
    if Satisfiable total offset last then
      conclude (artifactTotalBytes (partHeaders total offset last totalTold lengthTold) offset)
        (stopped (min arriving (last + 1 - offset)) broken stops) broken (offset + given total offset plan)
    else .retried

end Plan

def segment (artifact : List UInt8) (request : Nat × Plan) : List UInt8 :=
  (artifact.drop (request.2.start request.1)).take (request.2.given artifact.length request.1)

/-- What a request must meet. A body of the whole artifact is given to a request for it, or it is empty; and an answer
that ends without an error tells the size of the artifact, or brings its last byte, or falls short of its own length. -/
def Sound (total : Nat) (request : Nat × Plan) : Prop :=
  match request.2 with
  | .lost => True
  | .refused => True
  | .whole lengthTold arriving broken _ =>
    (request.1 = 0 ∨ delivered downloadChunkSize broken (min arriving total) = 0) ∧
      (broken = false → lengthTold = true ∨ request.1 + min arriving total = total)
  | .part last totalTold lengthTold arriving broken _ =>
    Satisfiable total request.1 last → broken = false →
      totalTold = true ∨ request.1 + min arriving (last + 1 - request.1) = total ∨
        (lengthTold = true ∧ request.1 + min arriving (last + 1 - request.1) ≠ last + 1)

instance (total : Nat) (request : Nat × Plan) : Decidable (Sound total request) :=
  match request with
  | (_, .lost) => .isTrue trivial
  | (_, .refused) => .isTrue trivial
  | (_, .whole ..) => inferInstanceAs (Decidable (_ ∧ (_ → _)))
  | (_, .part ..) => inferInstanceAs (Decidable (_ → _ → _))

theorem conclude_stopped (expected : Except Unit (Option Nat)) (broken : Bool) (received : Nat) :
    conclude expected true broken received = .raised := by
  cases expected <;> rfl

/-- An attempt that gets a body, by the sizes alone and with the bytes it adds. -/
theorem attempt_body (response : Response) (status : 200 ≤ response.status ∧ response.status < 300) (st : Download) :
    (attempt (.answered response) st).1 = conclude (artifactTotalBytes response.headers st.received)
        (Plan.stopped response.body.length response.broken response.stops) response.broken
        (st.received + delivered downloadChunkSize response.broken response.body.length) ∧
      ((attempt (.answered response) st).1 ≠ .raised → (attempt (.answered response) st).2 = {
        file := st.file ++ response.body.take (delivered downloadChunkSize response.broken response.body.length)
        received := st.received + delivered downloadChunkSize response.broken response.body.length }) := by
  have accepted : ¬(response.status < 200 ∨ 300 ≤ response.status) := by omega
  obtain ⟨told, read⟩ := readBlocks_eq (aiterBytes downloadChunkSize response) response.stops st
  have count : (aiterBytes downloadChunkSize response).length =
      blockCount downloadChunkSize response.broken response.body.length := blocks_length _ _ _
  have bytes := aiterBytes_flatten (by decide : 0 < downloadChunkSize) response
  have length := congrArg List.length bytes
  rw [List.length_take, min_eq_left (delivered_le _ _ _)] at length
  rw [count] at told read
  rw [bytes, List.length_take, min_eq_left (delivered_le _ _ _)] at read
  simp only [attempt, if_neg accepted, Plan.stopped]
  rw [told]
  cases calm : (response.stops.take (blockCount downloadChunkSize response.broken response.body.length)).any id with
  | true =>
    rw [conclude_stopped, conclude_stopped]
    exact ⟨rfl, fun survived => absurd rfl survived⟩
  | false =>
    rw [read calm]
    exact ⟨rfl, fun _ => rfl⟩

theorem attempt_serve (artifact : List UInt8) (plan : Plan) (st : Download) :
    (attempt (serve artifact plan (rangeOf st.received)) st).1 = plan.verdict artifact.length st.received ∧
      (plan.verdict artifact.length st.received ≠ .raised →
        (attempt (serve artifact plan (rangeOf st.received)) st).2 = {
          file := st.file ++ segment artifact (st.received, plan)
          received := st.received + plan.given artifact.length st.received }) := by
  cases plan with
  | lost => simp [serve, attempt, Plan.verdict, Plan.given, segment]
  | refused => simp [serve, attempt, Plan.verdict, Plan.given, segment]
  | whole lengthTold arriving broken stops =>
    obtain ⟨ended, added⟩ := attempt_body {
      status := 200
      headers := wholeHeaders artifact.length lengthTold
      body := artifact.take arriving
      broken := broken
      stops := stops } ⟨by norm_num, by norm_num⟩ st
    simp only [List.length_take] at ended added
    refine ⟨ended, fun survived => ?_⟩
    rw [serve, added (by rw [ended]; exact survived)]
    simp only [segment, Plan.start, Plan.given, List.drop_zero, List.take_take]
    rw [min_eq_left ((delivered_le _ _ _).trans (min_le_left _ _))]
  | part last totalTold lengthTold arriving broken stops =>
    -- Without a range a part is no answer the server gives.
    by_cases first : st.received = 0
    · obtain ⟨file, received⟩ := st
      simp only at first
      subst first
      simp [serve, rangeOf, attempt, Plan.verdict, Plan.given, segment, Satisfiable]
    · by_cases inside : st.received ≤ last ∧ last < artifact.length
      · have satisfiable : Satisfiable artifact.length st.received last := ⟨first, inside⟩
        obtain ⟨ended, added⟩ := attempt_body {
          status := 206
          headers := partHeaders artifact.length st.received last totalTold lengthTold
          body := ((artifact.drop st.received).take (last + 1 - st.received)).take arriving
          broken := broken
          stops := stops } ⟨by norm_num, by norm_num⟩ st
        have length : (((artifact.drop st.received).take (last + 1 - st.received)).take arriving).length =
            min arriving (last + 1 - st.received) := by
          simp only [List.length_take, List.length_drop]
          omega
        simp only [length] at ended added
        simp only [serve, rangeOf, if_neg first, if_pos inside, Plan.verdict, Plan.given, if_pos satisfiable]
        refine ⟨ended, fun survived => ?_⟩
        rw [added (by rw [ended]; exact survived)]
        -- What is handed on is a beginning of what arrives, and that a beginning of the part.
        have within := delivered_le downloadChunkSize broken (min arriving (last + 1 - st.received))
        simp only [segment, Plan.start, Plan.given, if_pos satisfiable, List.take_take]
        rw [← min_assoc, min_eq_left (within.trans (min_le_left _ _)), min_eq_left (within.trans (min_le_right _ _))]
      · have unsatisfiable : ¬Satisfiable artifact.length st.received last := fun satisfiable => inside satisfiable.2
        simp [serve, rangeOf, first, inside, attempt, Plan.verdict, Plan.given, segment, unsatisfiable]

theorem segment_length {artifact : List UInt8} {offset : Nat} (bounded : offset ≤ artifact.length) (plan : Plan) :
    (segment artifact (offset, plan)).length = plan.given artifact.length offset := by
  rw [segment, List.length_take, List.length_drop]
  cases plan with
  | lost | refused => simp [Plan.given]
  | whole lengthTold arriving broken stops =>
    have within := delivered_le downloadChunkSize broken (min arriving artifact.length)
    simp only [Plan.given, Plan.start]
    omega
  | part last totalTold lengthTold arriving broken stops =>
    by_cases satisfiable : Satisfiable artifact.length offset last
    · have inside := satisfiable.2
      have within := delivered_le downloadChunkSize broken (min arriving (last + 1 - offset))
      simp only [Plan.given, Plan.start, if_pos satisfiable]
      omega
    · simp [Plan.given, satisfiable]

/-! ### The headers -/

theorem rtakeWhile_slash {before text : Text} (plain : '/' ∉ text) :
    (before ++ ['/'] ++ text).rtakeWhile (· ≠ '/') = text := by
  have kept : ∀ c ∈ text.reverse, (c ≠ '/' : Bool) = true := by
    intro c member
    rw [decide_eq_true_eq]
    intro same
    exact plain (same ▸ List.mem_reverse.mp member)
  rw [List.rtakeWhile, List.append_assoc, List.reverse_append, List.reverse_append, List.append_assoc,
    List.takeWhile_append_of_pos kept]
  simp

theorem slash_decimal (value : Nat) : '/' ∉ decimal value := by
  intro member
  obtain ⟨d, small, same⟩ := decimal_digits member
  have plain : ∀ d < 10, '/' ≠ Nat.digitChar d := by decide
  exact plain d small same

theorem readNumber_decimal (value : Nat) :
    readNumber (decimal value) = some (.ok value) ∨ readNumber (decimal value) = some (.error ()) := by
  rw [readNumber, if_pos (isdigit_decimal value)]
  cases read : int (decimal value) with
  | none => exact Or.inr rfl
  | some n =>
    left
    rw [int_decimal_eq read]
    rfl

/-- The client learns a length that it is told, or `int` raises; a length it is not told is open. -/
theorem whole_total (total offset : Nat) (lengthTold : Bool) :
    (lengthTold = false ∧ artifactTotalBytes (wholeHeaders total lengthTold) offset = .ok none) ∨
      (lengthTold = true ∧ (artifactTotalBytes (wholeHeaders total lengthTold) offset = .ok (some (offset + total)) ∨
        artifactTotalBytes (wholeHeaders total lengthTold) offset = .error ())) := by
  cases lengthTold with
  | false => exact Or.inl ⟨rfl, rfl⟩
  | true =>
    right
    rcases readNumber_decimal total with read | read
    · exact ⟨rfl, Or.inl (by simp [artifactTotalBytes, wholeHeaders, read, Except.map])⟩
    · exact ⟨rfl, Or.inr (by simp [artifactTotalBytes, wholeHeaders, read, Except.map])⟩

theorem artifactTotalBytes_ranged (before : Text) {text : Text} (plain : '/' ∉ text) (length : Option Text) (offset : Nat) :
    (∀ total, readNumber text = some total →
      artifactTotalBytes ⟨some (before ++ ['/'] ++ text), length⟩ offset = total.map some) ∧
    (readNumber text = none → artifactTotalBytes ⟨some (before ++ ['/'] ++ text), length⟩ offset =
      artifactTotalBytes ⟨none, length⟩ offset) := by
  have slashed : '/' ∈ before ++ ['/'] ++ text := by simp
  have ranged : ((some (before ++ ['/'] ++ text)).filter fun range => decide ('/' ∈ range)).bind
      (fun range => readNumber (range.rtakeWhile (· ≠ '/'))) = readNumber text := by
    rw [Option.filter_some, if_pos (decide_eq_true slashed), Option.bind_some, rtakeWhile_slash plain]
  constructor
  · intro total read
    rw [artifactTotalBytes, ranged, read]
  · intro read
    rw [artifactTotalBytes, ranged, read]
    rfl

theorem part_total {total offset last : Nat} (low : offset ≤ last) (totalTold lengthTold : Bool) :
    artifactTotalBytes (partHeaders total offset last totalTold lengthTold) offset = .error () ∨
      (totalTold = true ∧
        artifactTotalBytes (partHeaders total offset last totalTold lengthTold) offset = .ok (some total)) ∨
      (totalTold = false ∧ lengthTold = true ∧
        artifactTotalBytes (partHeaders total offset last totalTold lengthTold) offset = .ok (some (last + 1))) ∨
      (totalTold = false ∧ lengthTold = false ∧
        artifactTotalBytes (partHeaders total offset last totalTold lengthTold) offset = .ok none) := by
  have sum : offset + (last + 1 - offset) = last + 1 := by omega
  cases totalTold with
  | true =>
    have told := (artifactTotalBytes_ranged ("bytes ".toList ++ decimal offset ++ ['-'] ++ decimal last)
      (slash_decimal total) (partHeaders total offset last true lengthTold).contentLength offset).1
    rcases readNumber_decimal total with read | read
    · exact Or.inr (Or.inl ⟨rfl, told _ read⟩)
    · exact Or.inl (told _ read)
  | false =>
    have plain : '/' ∉ ['*'] := by decide
    have open_ := (artifactTotalBytes_ranged ("bytes ".toList ++ decimal offset ++ ['-'] ++ decimal last) plain
      (partHeaders total offset last false lengthTold).contentLength offset).2 rfl
    have start : artifactTotalBytes (partHeaders total offset last false lengthTold) offset =
      artifactTotalBytes (wholeHeaders (last + 1 - offset) lengthTold) offset := open_
    rw [start]
    rcases whole_total (last + 1 - offset) offset lengthTold with untold | told
    · exact Or.inr (Or.inr (Or.inr ⟨rfl, untold⟩))
    · rcases told.2 with read | raised
      · rw [sum] at read
        exact Or.inr (Or.inr (Or.inl ⟨rfl, told.1, read⟩))
      · exact Or.inl raised

/-! ### Sound answers and how they end -/

theorem conclude_returned {expected : Except Unit (Option Nat)} {stopped broken : Bool} {received : Nat}
    (ended : conclude expected stopped broken received = .returned) :
    broken = false ∧ (expected = .ok none ∨ expected = .ok (some received)) := by
  unfold conclude at ended
  cases expected with
  | error _ => cases ended
  | ok expected =>
    simp only at ended
    split at ended
    · cases ended
    · split at ended
      · cases ended
      · next calm =>
        split at ended
        · next known =>
          refine ⟨by simpa using calm, ?_⟩
          rcases known with rfl | rfl
          · exact Or.inl rfl
          · exact Or.inr rfl
        · cases ended

theorem conclude_open {stopped : Bool} {received : Nat} :
    conclude (.ok none) stopped false received ≠ .retried := by
  cases stopped <;> simp [conclude]

theorem conclude_reached {stopped : Bool} {received : Nat} :
    conclude (.ok (some received)) stopped false received ≠ .retried := by
  cases stopped <;> simp [conclude]

theorem conclude_whole (received : Nat) : conclude (.ok (some received)) false false received = .returned := by
  simp [conclude]

/-- A sound answer that ends the download brings the last byte. -/
theorem Sound.returned {total offset : Nat} {plan : Plan} (sound : Sound total (offset, plan)) (bounded : offset ≤ total)
    (ended : plan.verdict total offset = .returned) : offset + plan.given total offset = total := by
  cases plan with
  | lost => cases ended
  | refused => cases ended
  | whole lengthTold arriving broken stops =>
    obtain ⟨aligned, complete⟩ := sound
    obtain ⟨calm, known⟩ := conclude_returned ended
    subst calm
    simp only [Plan.given, delivered_whole] at known aligned ⊢
    rcases whole_total total offset lengthTold with ⟨untold, _⟩ | ⟨told, read | raised⟩
    · -- Nothing told the total, so the answer brought the last byte.
      rcases complete rfl with told | reached
      · rw [untold] at told
        cases told
      · exact reached
    · rw [read] at known
      simp only [reduceCtorEq, Except.ok.injEq, Option.some.injEq, false_or] at known
      omega
    · rw [raised] at known
      simp at known
  | part last totalTold lengthTold arriving broken stops =>
    simp only [Plan.verdict] at ended
    split at ended
    next satisfiable =>
      obtain ⟨calm, known⟩ := conclude_returned ended
      subst calm
      have complete := sound satisfiable rfl
      simp only [Plan.given, if_pos satisfiable, delivered_whole] at known ⊢
      rcases @part_total total _ _ satisfiable.2.1 totalTold lengthTold with
        raised | ⟨told, read⟩ | ⟨untold, measured, read⟩ | ⟨untold, unmeasured, read⟩
      · rw [raised] at known
        simp at known
      · rw [read] at known
        simp only [reduceCtorEq, Except.ok.injEq, Option.some.injEq, false_or] at known
        -- The total was told, and the attempt returns only at it.
        exact known.symm
      · rw [read] at known
        simp only [reduceCtorEq, Except.ok.injEq, Option.some.injEq, false_or] at known
        rcases complete with told | reached | ⟨_, short⟩
        · rw [untold] at told
          cases told
        · exact reached
        · exact absurd known.symm short
      · rcases complete with told | reached | ⟨measured, _⟩
        · rw [untold] at told
          cases told
        · exact reached
        · rw [unmeasured] at measured
          cases measured
    next => cases ended

/-- An answer is sound if it brings nothing from a wrong place and brings the last byte where it ends the download. -/
theorem sound_of_verdict {total offset : Nat} {plan : Plan}
    (aligned : plan.start offset = offset ∨ plan.given total offset = 0)
    (survived : plan.verdict total offset ≠ .raised)
    (complete : plan.verdict total offset = .returned → offset + plan.given total offset = total) :
    Sound total (offset, plan) := by
  -- An attempt that did not raise has returned or goes on.
  have decided : plan.verdict total offset = .returned ∨ plan.verdict total offset = .retried := by
    cases ended : plan.verdict total offset with
    | returned => exact Or.inl rfl
    | retried => exact Or.inr rfl
    | raised => exact absurd ended survived
  cases plan with
  | lost => trivial
  | refused => trivial
  | whole lengthTold arriving broken stops =>
    refine ⟨aligned.imp Eq.symm id, ?_⟩
    rintro rfl
    simp only [Plan.given, delivered_whole] at complete
    rcases whole_total total offset lengthTold with ⟨untold, read⟩ | ⟨told, _⟩
    · right
      apply complete
      rcases decided with returned | retried
      · exact returned
      · simp only [Plan.verdict, read] at retried
        exact absurd retried conclude_open
    · exact Or.inl told
  | part last totalTold lengthTold arriving broken stops =>
    rintro satisfiable rfl
    simp only [Plan.given, if_pos satisfiable, delivered_whole] at complete
    rcases @part_total total _ _ satisfiable.2.1 totalTold lengthTold with
      raised | ⟨told, _⟩ | ⟨untold, measured, read⟩ | ⟨untold, unmeasured, read⟩
    · exact absurd (by simp [Plan.verdict, satisfiable, raised, conclude]) survived
    · exact Or.inl told
    · right
      by_cases reached : offset + min arriving (last + 1 - offset) = last + 1
      · left
        apply complete
        rcases decided with returned | retried
        · exact returned
        · simp only [Plan.verdict, if_pos satisfiable, read, Plan.given, delivered_whole, reached] at retried
          exact absurd retried conclude_reached
      · exact Or.inr ⟨measured, reached⟩
    · right
      left
      apply complete
      rcases decided with returned | retried
      · exact returned
      · simp only [Plan.verdict, if_pos satisfiable, read] at retried
        exact absurd retried conclude_open

/-! ### Runs -/

variable (stop : Nat → Bool) (plans : Nat → Plan)

def after (artifact : List UInt8) (plan : Plan) (st : Download) : Download where
  file := st.file ++ segment artifact (st.received, plan)
  received := st.received + plan.given artifact.length st.received

abbrev run (artifact : List UInt8) : Nat → Nat → Download → Option Download :=
  attempts stop fun number range => serve artifact (plans number) range

theorem run_stopped (artifact : List UInt8) (left : Nat) {number : Nat} (st : Download) (told : stop number = true) :
    run stop plans artifact left number st = none := by
  unfold run attempts
  rw [if_pos told]

theorem run_returned {artifact : List UInt8} (left number : Nat) (st : Download) (told : stop number = false)
    (ended : (plans number).verdict artifact.length st.received = .returned) :
    run stop plans artifact left number st = some (after artifact (plans number) st) ∧
      requests stop plans artifact left number st = [(st.received, plans number)] := by
  obtain ⟨verdict, next⟩ := attempt_serve artifact (plans number) st
  rw [ended] at verdict next
  constructor
  · unfold run attempts
    simp [told, verdict, next (by decide), after]
  · unfold requests
    simp [told, verdict]

theorem run_raised {artifact : List UInt8} (left : Nat) {number : Nat} {st : Download} (told : stop number = false)
    (ended : (plans number).verdict artifact.length st.received = .raised) :
    run stop plans artifact left number st = none := by
  have verdict := (attempt_serve artifact (plans number) st).1
  rw [ended] at verdict
  unfold run attempts
  simp [told, verdict]

theorem run_last {artifact : List UInt8} {number : Nat} {st : Download} (told : stop number = false)
    (ended : (plans number).verdict artifact.length st.received = .retried) :
    run stop plans artifact 0 number st = none := by
  have verdict := (attempt_serve artifact (plans number) st).1
  rw [ended] at verdict
  unfold run attempts
  simp [told, verdict]

theorem run_retried {artifact : List UInt8} (left number : Nat) (st : Download) (told : stop number = false)
    (ended : (plans number).verdict artifact.length st.received = .retried) :
    run stop plans artifact (left + 1) number st =
        run stop plans artifact left (number + 1) (after artifact (plans number) st) ∧
      requests stop plans artifact (left + 1) number st = (st.received, plans number) ::
        requests stop plans artifact left (number + 1) (after artifact (plans number) st) := by
  obtain ⟨verdict, next⟩ := attempt_serve artifact (plans number) st
  rw [ended] at verdict next
  constructor
  · unfold run
    rw [attempts]
    simp [told, verdict, next (by decide), after]
  · rw [requests]
    simp [told, verdict, next (by decide), after]

/-- A run that returns does so with its first attempt, or goes on after it. -/
theorem run_cases {artifact : List UInt8} {left number : Nat} {st final : Download}
    (returned : run stop plans artifact left number st = some final) :
    stop number = false ∧
      (((plans number).verdict artifact.length st.received = .returned ∧ final = after artifact (plans number) st) ∨
        ∃ rest, left = rest + 1 ∧ (plans number).verdict artifact.length st.received = .retried ∧
          run stop plans artifact rest (number + 1) (after artifact (plans number) st) = some final) := by
  cases told : stop number with
  | true =>
    rw [run_stopped stop plans artifact left st told] at returned
    cases returned
  | false =>
    refine ⟨rfl, ?_⟩
    cases ended : (plans number).verdict artifact.length st.received with
    | returned =>
      rw [(run_returned stop plans left _ _ told ended).1] at returned
      exact Or.inl ⟨rfl, (Option.some.inj returned).symm⟩
    | raised =>
      rw [run_raised stop plans left told ended] at returned
      cases returned
    | retried =>
      cases left with
      | zero =>
        rw [run_last stop plans told ended] at returned
        cases returned
      | succ rest =>
        rw [(run_retried stop plans _ _ _ told ended).1] at returned
        exact Or.inr ⟨rest, rfl, rfl, returned⟩

theorem run_prefix {artifact : List UInt8} {left number : Nat} {st final : Download}
    (returned : run stop plans artifact left number st = some final) : st.file <+: final.file := by
  induction left generalizing number st with
  | zero =>
    obtain ⟨_, ⟨_, rfl⟩ | ⟨rest, more, _⟩⟩ := run_cases stop plans returned
    · exact List.prefix_append _ _
    · omega
  | succ left ih =>
    obtain ⟨_, ⟨_, rfl⟩ | ⟨rest, same, _, later⟩⟩ := run_cases stop plans returned
    · exact List.prefix_append _ _
    · cases same
      exact (List.prefix_append _ _).trans (ih later)

theorem Sound.continues {artifact : List UInt8} {offset : Nat} {plan : Plan}
    (sound : Sound artifact.length (offset, plan)) :
    artifact.take offset ++ segment artifact (offset, plan) =
      artifact.take (offset + plan.given artifact.length offset) := by
  have aligned : plan.start offset = offset ∨ plan.given artifact.length offset = 0 := by
    cases plan with
    | whole lengthTold arriving broken stops => exact sound.1.imp Eq.symm id
    | lost | refused | part => exact Or.inl rfl
  rw [segment, List.take_add]
  rcases aligned with same | nothing
  · rw [same]
  · simp [nothing]

theorem given_bounded {total offset : Nat} {plan : Plan} (sound : Sound total (offset, plan)) (bounded : offset ≤ total) :
    offset + plan.given total offset ≤ total := by
  cases plan with
  | lost | refused => exact bounded
  | whole lengthTold arriving broken stops =>
    have aligned := sound.1
    have within := delivered_le downloadChunkSize broken (min arriving total)
    simp only [Plan.given] at aligned ⊢
    omega
  | part last totalTold lengthTold arriving broken stops =>
    by_cases satisfiable : Satisfiable total offset last
    · have inside := satisfiable.2
      have within := delivered_le downloadChunkSize broken (min arriving (last + 1 - offset))
      simp only [Plan.given, if_pos satisfiable]
      omega
    · simpa [Plan.given, satisfiable] using bounded

theorem run_exact {artifact other : List UInt8} (same : other.length = artifact.length) {left number : Nat}
    {st st' final : Download} (received : st'.received = st.received) (bounded : st.received ≤ artifact.length)
    (file : st'.file = other.take st.received)
    (returned : run stop plans artifact left number st = some final)
    (sound : ∀ request ∈ requests stop plans artifact left number st, Sound artifact.length request) :
    run stop plans other left number st' = some { file := other, received := artifact.length } := by
  -- The induction is on the attempts that are left, with the bytes so far a prefix of the other artifact.
  induction left generalizing number st st' with
  | zero =>
    obtain ⟨told, ⟨ended, _⟩ | ⟨rest, more, _⟩⟩ := run_cases stop plans returned
    · rw [(run_returned stop plans 0 _ _ told ended).2] at sound
      have first := sound _ List.mem_cons_self
      have reached := first.returned bounded ended
      rw [← same, ← received] at ended first reached
      rw [(run_returned stop plans 0 _ _ told ended).1, after, file, ← received, first.continues, reached, same,
        ← same, List.take_length]
    · omega
  | succ left ih =>
    obtain ⟨told, ⟨ended, _⟩ | ⟨rest, more, ended, later⟩⟩ := run_cases stop plans returned
    · rw [(run_returned stop plans (left + 1) _ _ told ended).2] at sound
      have first := sound _ List.mem_cons_self
      have reached := first.returned bounded ended
      rw [← same, ← received] at ended first reached
      rw [(run_returned stop plans (left + 1) _ _ told ended).1, after, file, ← received, first.continues, reached, same,
        ← same, List.take_length]
    · cases more
      rw [(run_retried stop plans _ _ _ told ended).2] at sound
      have first := sound _ List.mem_cons_self
      have endedOther : (plans number).verdict other.length st'.received = .retried := by rw [same, received, ended]
      rw [(run_retried stop plans _ _ _ told endedOther).1]
      refine ih ?_ (given_bounded first bounded) ?_ later fun request member => sound request (List.mem_cons_of_mem _ member)
      · simp only [after, received, same]
      · rw [← same] at first
        simp only [after, file, received, ← same]
        exact first.continues

/-- An artifact whose first byte does not come again. -/
def marked (total : Nat) : List UInt8 := (List.range total).map fun index => if index = 0 then 0 else 1

theorem marked_length (total : Nat) : (marked total).length = total := by simp [marked]

theorem marked_get {total index : Nat} (inside : index < total) :
    (marked total)[index]? = some (if index = 0 then 0 else 1) := by
  simp [marked, inside]

/-- A body of the whole artifact that is appended where it does not belong puts the first byte there. -/
theorem aligned_of_marked {total offset : Nat} {plan : Plan}
    (bounded : offset ≤ total) (before : List UInt8) (length : before.length = offset)
    (fits : before ++ segment (marked total) (offset, plan) <+: marked total) :
    plan.start offset = offset ∨ plan.given total offset = 0 := by
  by_contra neither
  obtain ⟨shifted, some_⟩ := not_or.mp neither
  cases plan with
  | lost | refused | part => exact shifted rfl
  | whole lengthTold arriving broken stops =>
    have positive : 0 < offset := Nat.pos_of_ne_zero fun zero => shifted zero.symm
    have reachable : offset ≤ (marked total).length := by rwa [marked_length]
    have counted := segment_length reachable (.whole lengthTold arriving broken stops)
    rw [marked_length] at counted
    have arrived : 0 < Plan.given total offset (.whole lengthTold arriving broken stops) := Nat.pos_of_ne_zero some_
    have within := fits.length_le
    rw [List.length_append, marked_length, counted, length] at within
    obtain ⟨rest, split⟩ := fits
    have here : (before ++ segment (marked total) (offset, .whole lengthTold arriving broken stops) ++ rest)[offset]? =
        (segment (marked total) (offset, .whole lengthTold arriving broken stops))[0]? := by
      rw [List.append_assoc, List.getElem?_append_right (by omega), length, Nat.sub_self,
        List.getElem?_append_left (by omega)]
    have first : (segment (marked total) (offset, .whole lengthTold arriving broken stops))[0]? = (marked total)[0]? := by
      rw [segment, marked_length, List.getElem?_take_of_lt arrived]
      rfl
    rw [split, first, marked_get (by omega), marked_get (by omega), if_pos rfl, if_neg (by omega)] at here
    exact absurd (Option.some.inj here) (by decide)

/-- An answer after which the file still begins the marked artifact is sound, if it brings the last byte where it ends
the download. -/
theorem sound_of_fits {total : Nat} {plan : Plan} {st : Download} (counted : st.file.length = st.received)
    (fits : (after (marked total) plan st).file <+: marked total)
    (survived : plan.verdict total st.received ≠ .raised)
    (complete : plan.verdict total st.received = .returned → st.received + plan.given total st.received = total) :
    Sound total (st.received, plan) := by
  have bounded : st.received ≤ total := by
    have within := ((List.prefix_append _ _).trans fits).length_le
    rwa [counted, marked_length] at within
  exact sound_of_verdict (aligned_of_marked bounded st.file counted fits) survived complete

theorem after_counted {artifact : List UInt8} {plan : Plan} {st : Download} (counted : st.file.length = st.received)
    (bounded : st.received ≤ artifact.length) :
    (after artifact plan st).file.length = (after artifact plan st).received := by
  rw [after, List.length_append, segment_length bounded, counted]

theorem sound_of_returned {total count number left : Nat} {st : Download} (counted : st.file.length = st.received)
    (bounded : st.received ≤ total) (told : stop number = false)
    (ended : (plans number).verdict total st.received = .returned)
    (exact_ : run stop plans (marked total) left number st = some ⟨marked total, count⟩) :
    Sound total (st.received, plans number) := by
  have endedHere : (plans number).verdict (marked total).length st.received = .returned := by rwa [marked_length]
  have reachable : st.received ≤ (marked total).length := by rwa [marked_length]
  rw [(run_returned stop plans left _ _ told endedHere).1] at exact_
  have file : (after (marked total) (plans number) st).file = marked total :=
    congrArg Download.file (Option.some.inj exact_)
  apply sound_of_fits counted
  · rw [file]
  · rw [ended]
    decide
  · intro _
    have whole := @after_counted _ (plans number) _ counted reachable
    rw [file, marked_length, after, marked_length] at whole
    exact whole.symm

theorem run_sound {artifact : List UInt8} {left number count : Nat} {st st' final : Download}
    (received : st'.received = st.received) (counted : st'.file.length = st'.received)
    (bounded : st'.received ≤ artifact.length)
    (returned : run stop plans artifact left number st = some final)
    (exact_ : run stop plans (marked artifact.length) left number st' = some ⟨marked artifact.length, count⟩) :
    ∀ request ∈ requests stop plans artifact left number st, Sound artifact.length request := by
  -- The two downloads run side by side: they have received equally much, and the second one is of bytes that all
  -- differ.
  induction left generalizing number st st' with
  | zero =>
    obtain ⟨told, ⟨ended, _⟩ | ⟨rest, more, _⟩⟩ := run_cases stop plans returned
    · rw [(run_returned stop plans 0 _ _ told ended).2, List.forall_mem_singleton, ← received]
      rw [← received] at ended
      exact sound_of_returned stop plans counted bounded told ended exact_
    · omega
  | succ left ih =>
    obtain ⟨told, ⟨ended, _⟩ | ⟨rest, more, ended, later⟩⟩ := run_cases stop plans returned
    · rw [(run_returned stop plans (left + 1) _ _ told ended).2, List.forall_mem_singleton, ← received]
      rw [← received] at ended
      exact sound_of_returned stop plans counted bounded told ended exact_
    · cases more
      have reachable : st'.received ≤ (marked artifact.length).length := by rwa [marked_length]
      have retried : (plans number).verdict (marked artifact.length).length st'.received = .retried := by
        rw [marked_length, received, ended]
      rw [(run_retried stop plans _ _ _ told retried).1] at exact_
      -- What the second download has by now stays, so it is a beginning of the whole.
      have fits := run_prefix stop plans exact_
      have afterCounted := @after_counted _ (plans number) _ counted reachable
      have afterBounded := fits.length_le
      rw [afterCounted, marked_length] at afterBounded
      have sameReceived : (after (marked artifact.length) (plans number) st').received =
          (after artifact (plans number) st).received := by
        simp only [after, marked_length, received]
      rw [(run_retried stop plans _ _ _ told ended).2, List.forall_mem_cons]
      refine ⟨?_, ih sameReceived afterCounted afterBounded later exact_⟩
      rw [← received]
      rw [marked_length] at retried
      refine sound_of_fits counted fits ?_ ?_
      · rw [retried]
        decide
      · intro returned
        rw [retried] at returned
        cases returned

/-- A download that returns has got the bytes of the artifact, whatever they are, exactly when each of its requests
was answered soundly. -/
theorem streamArchive_exact_iff {artifact : List UInt8} {final : Download}
    (returned : streamArchive stop (fun number range => serve artifact (plans number) range) none = some final) :
    (∀ other : List UInt8, other.length = artifact.length →
      streamArchive stop (fun number range => serve other (plans number) range) none =
        some { file := other, received := other.length }) ↔
    ∀ request ∈ requests stop plans artifact transferRetryLimit 0 { file := [], received := 0 },
      Sound artifact.length request := by
  constructor
  · intro exact_
    have ended := exact_ (marked artifact.length) (marked_length _)
    exact run_sound stop plans rfl rfl (Nat.zero_le _) returned ended
  · intro sound other same
    rw [same]
    exact run_exact stop plans same rfl (Nat.zero_le _) rfl returned sound

/-! ### An artifact of one block and a byte -/

section Resumed
variable {artifact : List UInt8} (length : artifact.length = downloadChunkSize + 1)
include length

def droppedBlock : Plan := .whole true downloadChunkSize true []

theorem length_read : readNumber (decimal artifact.length) = some (.ok artifact.length) := by
  rw [length]
  decide +kernel

theorem whole_read (offset : Nat) :
    artifactTotalBytes (wholeHeaders artifact.length true) offset = .ok (some (offset + artifact.length)) := by
  simp [artifactTotalBytes, wholeHeaders, length_read length, Except.map]

theorem droppedBlock_given : droppedBlock.given artifact.length 0 = downloadChunkSize := by
  rw [length, droppedBlock, Plan.given, min_eq_left (Nat.le_succ _), delivered, if_pos rfl,
    Nat.div_self (by decide), one_mul]

theorem droppedBlock_verdict : droppedBlock.verdict artifact.length 0 = .retried := by
  simp [droppedBlock, Plan.verdict, Plan.stopped, whole_read length, conclude]

theorem run_droppedBlock (plans : Nat → Plan) (first : plans 0 = droppedBlock) :
    streamArchive (fun _ => false) (fun number range => serve artifact (plans number) range) none =
        run (fun _ => false) plans artifact 2 1 ⟨artifact.take downloadChunkSize, downloadChunkSize⟩ ∧
      requests (fun _ => false) plans artifact transferRetryLimit 0 ⟨[], 0⟩ = (0, droppedBlock) ::
        requests (fun _ => false) plans artifact 2 1 ⟨artifact.take downloadChunkSize, downloadChunkSize⟩ := by
  have retried : (plans 0).verdict artifact.length 0 = .retried := first ▸ droppedBlock_verdict length
  have state : after artifact (plans 0) ⟨[], 0⟩ = ⟨artifact.take downloadChunkSize, downloadChunkSize⟩ := by
    rw [first, after, segment, droppedBlock_given length, zero_add]
    rfl
  obtain ⟨later, asked⟩ := run_retried (fun _ => false) plans 2 0 ⟨[], 0⟩ rfl retried
  rw [state] at later asked
  rw [first] at asked
  exact ⟨later, asked⟩

end Resumed

def resumedPlans : Nat → Plan
  | 0 => droppedBlock
  | _ => .part downloadChunkSize true true 1 false []

theorem resumedPlans_returned {artifact : List UInt8} (length : artifact.length = downloadChunkSize + 1) :
    (resumedPlans 1).verdict artifact.length downloadChunkSize = .returned ∧
      (resumedPlans 1).given artifact.length downloadChunkSize = 1 := by
  have satisfiable : Satisfiable artifact.length downloadChunkSize downloadChunkSize :=
    ⟨by decide, le_rfl, by omega⟩
  have rest : downloadChunkSize + 1 - downloadChunkSize = 1 := by omega
  have given : (resumedPlans 1).given artifact.length downloadChunkSize = 1 := by
    simp only [resumedPlans, Plan.given, if_pos satisfiable, rest, min_self, delivered_whole]
  have read : artifactTotalBytes (partHeaders artifact.length downloadChunkSize downloadChunkSize true true)
      downloadChunkSize = .ok (some artifact.length) :=
    (artifactTotalBytes_ranged ("bytes ".toList ++ decimal downloadChunkSize ++ ['-'] ++ decimal downloadChunkSize)
      (slash_decimal artifact.length) _ downloadChunkSize).1 _ (length_read length)
  have concluded : (resumedPlans 1).verdict artifact.length downloadChunkSize =
      conclude (artifactTotalBytes (partHeaders artifact.length downloadChunkSize downloadChunkSize true true)
        downloadChunkSize) false false (downloadChunkSize + (resumedPlans 1).given artifact.length downloadChunkSize) := by
    simp only [resumedPlans, Plan.verdict, if_pos satisfiable, Plan.stopped, List.take_nil, List.any_nil]
  rw [concluded, read, given, ← length]
  exact ⟨conclude_whole _, rfl⟩

theorem resumed_exact :
    streamArchive (fun _ => false)
        (fun number range => serve (List.replicate (downloadChunkSize + 1) 4) (resumedPlans number) range) none =
      some ⟨List.replicate (downloadChunkSize + 1) 4, (List.replicate (downloadChunkSize + 1) (4 : UInt8)).length⟩ := by
  have length : (List.replicate (downloadChunkSize + 1) (5 : UInt8)).length = downloadChunkSize + 1 :=
    List.length_replicate
  obtain ⟨started, asked⟩ := run_droppedBlock length resumedPlans rfl
  obtain ⟨ended, given⟩ := resumedPlans_returned length
  obtain ⟨finished, last⟩ := run_returned (fun _ => false) resumedPlans 2 1
    ⟨(List.replicate (downloadChunkSize + 1) 5).take downloadChunkSize, downloadChunkSize⟩ rfl ended
  refine (streamArchive_exact_iff _ _ (started.trans finished)).mpr ?_ _ (by simp only [List.length_replicate])
  rw [asked, last, List.forall_mem_cons, List.forall_mem_singleton]
  exact ⟨⟨Or.inl rfl, fun ends => by cases ends⟩, fun _ _ => Or.inl rfl⟩

def restartedPlans : Nat → Plan
  | 0 => droppedBlock
  | _ => .whole true (downloadChunkSize + 1) false []

theorem first_block_twice :
    streamArchive (fun _ => false)
        (fun number range => serve (List.replicate (downloadChunkSize + 1) 7) (restartedPlans number) range) none =
      some ⟨List.replicate (downloadChunkSize + (downloadChunkSize + 1)) 7,
        downloadChunkSize + (downloadChunkSize + 1)⟩ := by
  have length : (List.replicate (downloadChunkSize + 1) (7 : UInt8)).length = downloadChunkSize + 1 :=
    List.length_replicate
  have started := (run_droppedBlock length restartedPlans rfl).1
  have given : (restartedPlans 1).given (List.replicate (downloadChunkSize + 1) (7 : UInt8)).length downloadChunkSize =
      downloadChunkSize + 1 := by
    simp only [restartedPlans, Plan.given, length, min_self, delivered_whole]
  have ended : (restartedPlans 1).verdict (List.replicate (downloadChunkSize + 1) (7 : UInt8)).length downloadChunkSize =
      .returned := by
    have concluded : (restartedPlans 1).verdict (List.replicate (downloadChunkSize + 1) (7 : UInt8)).length
        downloadChunkSize = conclude (artifactTotalBytes
          (wholeHeaders (List.replicate (downloadChunkSize + 1) (7 : UInt8)).length true) downloadChunkSize) false false
          (downloadChunkSize +
            (restartedPlans 1).given (List.replicate (downloadChunkSize + 1) (7 : UInt8)).length downloadChunkSize) := by
      simp only [restartedPlans, Plan.verdict, Plan.stopped, List.take_nil, List.any_nil]
    rw [concluded, whole_read length, given, length]
    exact conclude_whole _
  have finished := (run_returned (fun _ => false) restartedPlans 2 1
    ⟨(List.replicate (downloadChunkSize + 1) 7).take downloadChunkSize, downloadChunkSize⟩ rfl ended).1
  rw [started, finished]
  have bytes : segment (List.replicate (downloadChunkSize + 1) (7 : UInt8)) (downloadChunkSize, restartedPlans 1) =
      List.replicate (downloadChunkSize + 1) 7 := by
    rw [segment, given]
    simp only [restartedPlans, Plan.start, List.drop_zero, List.take_replicate, min_self]
  rw [after, bytes, given, List.take_replicate, min_eq_left (Nat.le_succ _), List.replicate_append_replicate]

end PhysicalAiStudio.Remote.Artifact
