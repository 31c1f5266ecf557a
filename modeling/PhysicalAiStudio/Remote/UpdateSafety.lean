import PhysicalAiStudio.Remote.TrainerUpdate

/-! When an update that raises leaves the trainer and its tunnel as they were.

The row is written before the tunnel is replaced, and the old tunnel is closed before the new one is opened. An
exception of the tunnel writes the row back; only a local port that is taken opens the old tunnel again.
-/

set_option autoImplicit false

namespace PhysicalAiStudio.Remote.Trainers
open Strings

variable {remote : RemoteTrainer} {update : RemoteTrainerUpdate} {feature : Availability} {attempts : Nat → Attempt}
  {before row : Row} {prior : Option Tunnel} {closed : Bool} {left number since time : Nat}

/-! ### What a raise leaves -/

def restoredTime (remote validated : RemoteTrainer) (attempt : Attempt) (time : Nat) : Nat :=
  if validated = remote then time else attempt.restoredAt

/-- The answers under which a call of `sync_tunnel` with no tunnel open leaves the one there was. -/
def Reopened (feature : Availability) (remote : RemoteTrainer) (sync : Sync) : Option Tunnel → Prop
  | none => sync.lockCancelled = true ∨ isSsh remote.connection = false ∨ feature.active = false ∨
      ∃ failure, sync.opening = .failed failure
  | some tunnel => sync.lockCancelled = false ∧ feature.active = true ∧ remote.connection = .ssh tunnel.connection ∧
      tunnel.live = true ∧ ∃ freePort, sync.opening = .opened freePort ∧
        tunnel.localPort = tunnel.connection.sshLocalPort.getD freePort

/-- A port collision of a pass that does not go round again, whose old tunnel is opened once more. -/
def Reopens (prepared : Prepared) (failure : Failure) : Prop :=
  failure = .addressInUse ∧ isSsh prepared.validated.connection = true

instance (prepared : Prepared) (failure : Failure) : Decidable (Reopens prepared failure) :=
  inferInstanceAs (Decidable (_ ∧ _))

def HarmlessFailure (remote : RemoteTrainer) (feature : Availability) (attempt : Attempt) (prepared : Prepared)
    (last : Bool) (failure : Failure) (since : Nat) (prior : Option Tunnel) (time : Nat) (again : Nat → Prop) : Prop :=
  match attempt.restored with
  | .duplicate | .failed _ => prepared.validated = remote ∧ time = since ∧ prior = none
  | .committed (some _) => restoredTime remote prepared.validated attempt time = since ∧ prior = none
  | .committed none =>
    if Reopens prepared failure then
      if prepared.autoPort && !last then again (restoredTime remote prepared.validated attempt time)
      else
        restoredTime remote prepared.validated attempt time = since ∧ Reopened feature remote attempt.reopened prior
    else restoredTime remote prepared.validated attempt time = since ∧ prior = none

/-- The surroundings from a pass on, where a raise undoes nothing that was not undone: `since` and `prior` are the time
in the row and the tunnel of the call, `time` is in the row now, and `closed` says that an earlier pass has closed the
tunnel. -/
def Harmless (remote : RemoteTrainer) (update : RemoteTrainerUpdate) (feature : Availability)
    (attempts : Nat → Attempt) (since : Nat) (prior : Option Tunnel) :
    (left number : Nat) → (time : Nat) → (closed : Bool) → Prop
  | 0, _, _, _ => True
  | left + 1, number, time, closed =>
    let attempt := attempts number
    match prepare remote update feature attempt with
    | .pending => True
    | .raised _ => time = since ∧ (closed = true → prior = none)
    | .passed prepared =>
      match attempt.written with
      | .failed _ => time = since ∧ (closed = true → prior = none)
      | .duplicate =>
        match afterDuplicate attempt prepared (left = 0) with
        | .again => Harmless remote update feature attempts since prior left (number + 1) time closed
        | _ => time = since ∧ (closed = true → prior = none)
      | .committed (some _) =>
        prepared.validated = remote ∧ time = since ∧ (closed = true → prior = none)
      | .committed none =>
        if attempt.sync.lockCancelled then
          prepared.validated = remote ∧ time = since ∧ (closed = true → prior = none)
        else
          match (syncTunnel feature prepared.validated attempt.sync (if closed then none else prior)).1 with
          -- What raises after this leaves the new connection in place.
          | none => False
          | some .cancelled => prepared.validated = remote ∧ time = since ∧ prior = none
          | some failure =>
            HarmlessFailure remote feature attempt prepared (left = 0) failure since prior time fun restored =>
              Harmless remote update feature attempts since prior left (number + 1) restored true

/-! ### Rows -/

theorem write_trainer (row : Row) (trainer : RemoteTrainer) (time : Nat) : (row.write trainer time).trainer = trainer := by
  unfold Row.write
  split
  · next same => exact same
  · rfl

theorem write_eq (row : Row) (trainer : RemoteTrainer) (time : Nat) :
    row.write trainer time = ⟨trainer, (row.write trainer time).updatedAt⟩ := by
  unfold Row.write
  split
  · next same =>
    cases row
    cases same
    rfl
  · rfl

theorem row_eq_iff (stored : row.trainer = remote) (was : before.trainer = remote) :
    row = before ↔ row.updatedAt = before.updatedAt := by
  cases row
  cases before
  cases stored
  cases was
  simp

/-- A write of what is stored changes nothing, and any other write is seen. -/
theorem write_eq_iff {validated : RemoteTrainer} (stored : row.trainer = remote) (was : before.trainer = remote)
    (time : Nat) : row.write validated time = before ↔ validated = remote ∧ row.updatedAt = before.updatedAt := by
  rw [← row_eq_iff stored was]
  constructor
  · intro same
    have trainer := write_trainer row validated time
    rw [same, was] at trainer
    refine ⟨trainer.symm, ?_⟩
    unfold Row.write at same
    rw [if_pos (stored.trans trainer)] at same
    exact same
  · rintro ⟨rfl, rfl⟩
    unfold Row.write
    rw [if_pos stored]

theorem write_write {validated : RemoteTrainer} (stored : row.trainer = remote) (attempt : Attempt) :
    (row.write validated attempt.writtenAt).write remote attempt.restoredAt =
      ⟨remote, restoredTime remote validated attempt row.updatedAt⟩ := by
  unfold restoredTime
  split
  · next same =>
    have kept : row.write validated attempt.writtenAt = row := by
      unfold Row.write
      rw [if_pos (stored.trans same.symm)]
    rw [kept]
    unfold Row.write
    rw [if_pos stored, ← stored]
  · next changed =>
    rw [Row.write, if_neg (by rw [write_trainer]; exact changed)]

/-! ### Tunnels -/

theorem syncTunnel_failed {trainer : RemoteTrainer} {sync : Sync} {tunnel : Option Tunnel} {failure : Failure}
    (unlocked : sync.lockCancelled = false) (failed : (syncTunnel feature trainer sync tunnel).1 = some failure) :
    (syncTunnel feature trainer sync tunnel).2 = none := by
  unfold syncTunnel at failed ⊢
  rw [unlocked] at failed ⊢
  simp only [Bool.false_eq_true, if_false] at failed ⊢
  split at failed
  · next closing => rw [if_pos closing]
  · next open_ =>
    rw [if_neg open_]
    cases connected : trainer.connection with
    | ssh connection =>
      cases active : feature.active with
      | false => rfl
      | true =>
        cases opened : sync.opening with
        | failed raised => rfl
        | opened port => simp only [connected, active, opened, if_true, reduceCtorEq] at failed
    | direct url => rfl
    | awsBatch connection => rfl

/-- What `sync_tunnel` leaves where no tunnel is open is the one there was just under these answers. -/
theorem reopened_iff {sync : Sync} :
    (syncTunnel feature remote sync none).2 = prior ↔ Reopened feature remote sync prior := by
  unfold syncTunnel
  cases locked : sync.lockCancelled with
  | true => cases prior <;> simp [Reopened, locked]
  | false =>
    cases connected : remote.connection with
    | direct url | awsBatch connection => cases prior <;> simp [Reopened, locked, connected, isSsh]
    | ssh connection =>
      cases active : feature.active with
      | false => cases prior <;> simp [Reopened, locked, connected, active]
      | true =>
        cases opened : sync.opening with
        | failed failure => cases prior <;> simp [Reopened, locked, connected, active, opened]
        | opened port =>
          cases prior with
          | none => simp [Reopened, locked, connected, active, opened, isSsh]
          | some tunnel =>
            obtain ⟨other, localPort, live⟩ := tunnel
            simp only [Reopened, locked, connected, active, opened, Option.isSome_none, Bool.false_and,
              Bool.false_eq_true, if_false, if_true, Option.some.injEq, Tunnel.mk.injEq, true_and, Connection.ssh.injEq,
              Opening.opened.injEq, exists_eq_left']
            constructor
            · rintro ⟨rfl, rfl, rfl⟩
              exact ⟨rfl, rfl, rfl⟩
            · rintro ⟨rfl, rfl, rfl⟩
              exact ⟨rfl, rfl, rfl⟩

/-! ### Runs -/

/-- A pass that raises leaves what was there exactly where nothing is to be undone, and one that goes on has changed
the trainer. -/
def Keeps (before : Row) (prior : Option Tunnel) (harmless : Prop) : Passed × State → Prop
  | (.raised _, state) => state = ⟨some before, prior⟩ ↔ harmless
  | (.synced saved, state) => ¬harmless ∧ ∃ time, state.row = some ⟨saved, time⟩
  | _ => True

theorem keeps_raised {harmless : Prop} {fault : Fault} {tunnel : Option Tunnel}
    (same : (row = before ∧ tunnel = prior) ↔ harmless) :
    Keeps before prior harmless (.raised fault, ⟨some row, tunnel⟩) := by
  unfold Keeps
  simp only [State.mk.injEq, Option.some.injEq]
  exact same

theorem start_tunnel_iff : ((if closed then none else prior) = prior) ↔ (closed = true → prior = none) := by
  cases closed with
  | false => simp
  | true => simp [eq_comm]

theorem afterDuplicate_stops {attempt : Attempt} {prepared : Prepared} {last : Bool} {saved : RemoteTrainer} :
    afterDuplicate attempt prepared last ≠ .synced saved := by
  unfold afterDuplicate
  repeat' split
  all_goals simp

theorem afterSyncFailure_keeps {attempt : Attempt} {prepared : Prepared} {last : Bool} {failure : Failure}
    {again : Nat → Prop} {next : State → Passed × State} (stored : row.trainer = remote)
    (was : before.trainer = remote)
    (goes : ∀ time, Keeps before prior (again time) (next ⟨some ⟨remote, time⟩, none⟩)) :
    Keeps before prior
      (HarmlessFailure remote feature attempt prepared last failure before.updatedAt prior row.updatedAt again)
      (goRound next (afterSyncFailure remote feature attempt prepared last failure
        ⟨some (row.write prepared.validated attempt.writtenAt), none⟩)) := by
  unfold afterSyncFailure HarmlessFailure
  have none_iff : (none = prior) ↔ prior = none := eq_comm
  cases restored : attempt.restored with
  | duplicate | failed raised =>
    apply keeps_raised
    rw [write_eq_iff stored was, none_iff, and_assoc]
  | committed readBack =>
    -- Writing the old trainer over the new one leaves the old one, with the time of the second write.
    have applied : (Commit.committed readBack).apply remote attempt.restoredAt
        ⟨some (row.write prepared.validated attempt.writtenAt), none⟩ =
          ⟨some ⟨remote, restoredTime remote prepared.validated attempt row.updatedAt⟩, none⟩ := by
      rw [← write_write stored]
      rfl
    simp only [applied]
    have restored_iff : (⟨remote, restoredTime remote prepared.validated attempt row.updatedAt⟩ : Row) = before ↔
        restoredTime remote prepared.validated attempt row.updatedAt = before.updatedAt := row_eq_iff rfl was
    cases readBack with
    | some raised =>
      apply keeps_raised
      rw [none_iff, restored_iff]
    | none =>
      simp only [Commit.outcome]
      have raisedAgain : Keeps before prior
          (restoredTime remote prepared.validated attempt row.updatedAt = before.updatedAt ∧ prior = none)
          (.raised (.failure failure),
            ⟨some ⟨remote, restoredTime remote prepared.validated attempt row.updatedAt⟩, none⟩) := by
        apply keeps_raised
        rw [none_iff, restored_iff]
      cases failure with
      | cancelled | other =>
        rw [if_neg (by simp [Reopens])]
        exact raisedAgain
      | addressInUse =>
        cases connected : prepared.validated.connection with
        | direct url | awsBatch connection =>
          rw [if_neg (by simp [Reopens, connected, isSsh])]
          exact raisedAgain
        | ssh connection =>
          rw [if_pos (by simp [Reopens, connected, isSsh])]
          simp only
          split
          · exact goes _
          · apply keeps_raised
            rw [restored_iff, reopened_iff]

theorem passes_keeps (stored : row.trainer = remote) (was : before.trainer = remote) :
    Keeps before prior
      (Harmless remote update feature attempts before.updatedAt prior left number row.updatedAt closed)
      (passes remote update feature attempts left number ⟨some row, if closed then none else prior⟩) := by
  -- The induction is on the passes that are left; the row differs from the first one only in its time.
  induction left generalizing number row closed with
  | zero => trivial
  | succ left ih =>
    unfold passes pass Harmless
    simp only
    cases preparing : prepare remote update feature (attempts number) with
    | pending => trivial
    | raised fault => exact keeps_raised (and_congr (row_eq_iff stored was) start_tunnel_iff)
    | passed prepared =>
      simp only
      cases written : (attempts number).written with
      | failed failure => exact keeps_raised (and_congr (row_eq_iff stored was) start_tunnel_iff)
      | duplicate =>
        simp only
        cases afterwards : afterDuplicate (attempts number) prepared (decide (left = 0)) with
        | again => exact ih stored
        | raised fault => exact keeps_raised (and_congr (row_eq_iff stored was) start_tunnel_iff)
        | pending => trivial
        | synced saved => exact absurd afterwards afterDuplicate_stops
      | committed readBack =>
        have applied : (Commit.committed readBack).apply prepared.validated (attempts number).writtenAt
            ⟨some row, if closed then none else prior⟩ =
              ⟨some (row.write prepared.validated (attempts number).writtenAt), if closed then none else prior⟩ := rfl
        simp only [applied]
        cases readBack with
        | some failure =>
          apply keeps_raised
          rw [write_eq_iff stored was, start_tunnel_iff, and_assoc]
        | none =>
          simp only
          cases locked : (attempts number).sync.lockCancelled with
          | true =>
            have cancelled : syncTunnel feature prepared.validated (attempts number).sync
                (if closed then none else prior) = (some .cancelled, if closed then none else prior) := by
              unfold syncTunnel
              rw [locked]
              rfl
            simp only [cancelled, if_true]
            apply keeps_raised
            rw [write_eq_iff stored was, start_tunnel_iff, and_assoc]
          | false =>
            simp only [Bool.false_eq_true, if_false]
            cases syncing : (syncTunnel feature prepared.validated (attempts number).sync
              (if closed then none else prior)).1 with
            | none =>
              refine ⟨not_false, (row.write prepared.validated (attempts number).writtenAt).updatedAt, ?_⟩
              exact congrArg some (write_eq row prepared.validated (attempts number).writtenAt)
            | some failure =>
              have dropped := syncTunnel_failed locked syncing
              rw [dropped]
              cases failure with
              | cancelled =>
                apply keeps_raised
                rw [write_eq_iff stored was, and_assoc, eq_comm (a := none)]
              | addressInUse | other =>
                exact afterSyncFailure_keeps stored was fun time => @ih ⟨remote, time⟩ true (number + 1) rfl

def HarmlessUpdate (update : RemoteTrainerUpdate) (surroundings : Surroundings) (state : State) : Prop :=
  match surroundings.reading, state.row with
  | none, some row =>
    surroundings.installing = true ∨ surroundings.lockCancelled = true ∨
      Harmless row.trainer update surroundings.feature surroundings.attempt row.updatedAt state.tunnel 3 0
        row.updatedAt false
  -- The trainer is not even read.
  | _, _ => True

theorem finish_raised {saved : RemoteTrainer} {surroundings : Surroundings} {fault : Fault}
    (raised : finish remote saved surroundings = .raised fault) : saved ≠ remote := by
  unfold finish at raised
  split at raised
  · next changed =>
    rintro rfl
    exact changed.1 rfl
  · cases raised

theorem updateRemoteTrainer_atomic_iff {id : Text} {surroundings : Surroundings} {state : State} {fault : Fault}
    (raised : (updateRemoteTrainer id update surroundings state).1 = .raised fault) :
    (updateRemoteTrainer id update surroundings state).2 = state ↔ HarmlessUpdate update surroundings state := by
  obtain ⟨stored, tunnel⟩ := state
  unfold updateRemoteTrainer HarmlessUpdate at *
  cases reading : surroundings.reading with
  | some failure => simp
  | none =>
    cases stored with
    | none => simp
    | some row =>
      simp only [reading] at raised ⊢
      cases installing : surroundings.installing with
      | true => simp
      | false =>
        cases locked : surroundings.lockCancelled with
        | true => simp
        | false =>
          simp only [installing, locked, Bool.false_eq_true, if_false, false_or] at raised ⊢
          -- What the passes leave depends on how they end.
          have keeps := @passes_keeps row.trainer update surroundings.feature surroundings.attempt row row tunnel false
            3 0 rfl rfl
          simp only [Bool.false_eq_true, if_false] at keeps
          cases passing : passes row.trainer update surroundings.feature surroundings.attempt 3 0 ⟨some row, tunnel⟩ with
          | mk result final =>
            rw [passing] at keeps
            cases result with
            | again | pending => simp [passing] at raised
            | raised fault' => simpa [Keeps, passing] using keeps
            | synced saved =>
              simp only [passing] at raised ⊢
              obtain ⟨harmful, time, written⟩ := keeps
              refine iff_of_false ?_ harmful
              intro same
              rw [same] at written
              cases written
              exact finish_raised raised rfl

/-! ### A trainer with an open tunnel -/

def gpuConnection : SshConnection where
  host := .hostAlias "gpu-box".toList
  sshRemotePort := 8001
  sshLocalPort := some 9011

def gpuTrainer : RemoteTrainer where
  id := "b7".toList
  name := { text := "gpu".toList, stripped := by decide, nonempty := by decide, short := by decide }
  connection := .ssh gpuConnection

def gpuState : State where
  row := some ⟨gpuTrainer, 100⟩
  tunnel := some ⟨gpuConnection, 9011, true⟩

def portUpdate : RemoteTrainerUpdate where
  name := none
  connection := some (.ssh { gpuConnection with sshRemotePort := 8002 })

def quietSync : Sync where
  lockCancelled := false
  close := none
  opening := .opened 9011

def quietAttempt : Attempt where
  listedForPort := .ok [gpuTrainer]
  offered := []
  activeJobs := .ok false
  listed := .ok [gpuTrainer]
  written := .committed none
  writtenAt := 200
  rollback := none
  listedAgain := .ok [gpuTrainer]
  sync := quietSync
  restored := .committed none
  restoredAt := 201
  reopened := quietSync

def quietSurroundings : Surroundings where
  reading := none
  installing := false
  lockCancelled := false
  feature := ⟨true, none⟩
  attempt := fun _ => quietAttempt
  cancelLaunch := none
  stopContainer := none

def busySurroundings : Surroundings :=
  { quietSurroundings with attempt := fun _ => { quietAttempt with activeJobs := .ok true } }

/-- The SSH host does not answer when the new tunnel is opened. -/
def unreachableSurroundings : Surroundings :=
  { quietSurroundings with attempt := fun _ =>
      { quietAttempt with sync := { quietSync with opening := .failed .other } } }

def stuckSurroundings : Surroundings := { quietSurroundings with stopContainer := some .other }

theorem busy_update_kept :
    (updateRemoteTrainer "b7".toList portUpdate busySurroundings gpuState).1 = .raised (.inUse "b7".toList) ∧
      (updateRemoteTrainer "b7".toList portUpdate busySurroundings gpuState).2 = gpuState :=
  ⟨by rfl, (updateRemoteTrainer_atomic_iff (by rfl)).mpr (.inr (.inr ⟨rfl, by decide⟩))⟩

/-- Where the new tunnel does not open, the old one is gone; where the old container does not stop, the new
connection and its tunnel stay. -/
theorem failed_update_changes :
    ((updateRemoteTrainer "b7".toList portUpdate unreachableSurroundings gpuState).1 = .raised (.failure .other) ∧
      (updateRemoteTrainer "b7".toList portUpdate unreachableSurroundings gpuState).2.tunnel = none ∧
      gpuState.tunnel = some ⟨gpuConnection, 9011, true⟩) ∧
    ((updateRemoteTrainer "b7".toList portUpdate stuckSurroundings gpuState).1 = .raised (.failure .other) ∧
      (updateRemoteTrainer "b7".toList portUpdate stuckSurroundings gpuState).2 ≠ gpuState) := by
  refine ⟨⟨by rfl, by rfl, by rfl⟩, by rfl, by decide⟩

end PhysicalAiStudio.Remote.Trainers
