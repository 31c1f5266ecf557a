import Mathlib.Data.List.Basic
import Mathlib.Data.List.Infix
import PhysicalAiStudio.Jobs.TrainingJob

/-! The keys that keep two jobs from running on the same target.

A key names what a job reserves: this machine, a remote trainer or one device of it, a policy
on a batch trainer, or the place of the one dataset import. A trainer that is reserved as a
whole excludes its devices, which their keys show as a prefix.
-/

set_option autoImplicit false

namespace PhysicalAiStudio.Jobs

def startswith (text head : String) : Bool := head.toList.isPrefixOf text.toList

inductive DeviceType where
  | cpu
  | xpu
  | cuda
  | npu
  deriving DecidableEq

def DeviceType.value : DeviceType → String
  | .cpu => "cpu"
  | .xpu => "xpu"
  | .cuda => "cuda"
  | .npu => "npu"

structure TrainingDevice where
  type : DeviceType
  index : Option Nat := none
  deriving DecidableEq

def TrainingDevice.indexText (device : TrainingDevice) : String :=
  match device.index with
  | some index => toString index
  | none => "None"

structure TargetPayload where
  trainingTarget : TrainingTarget := .local
  remoteTrainerId : String := ""
  remoteTrainerUrl : Option String := none
  policy : String := ""
  device : Option TrainingDevice := none
  deriving DecidableEq

def TargetPayload.awsBatch (payload : TargetPayload) : Bool :=
  payload.remoteTrainerUrl.any fun url => startswith url "aws-batch://"

def targetKey (payload : TargetPayload) : String :=
  match payload.trainingTarget with
  | .local => "local"
  | .remote =>
    let trainerKey := "remote:" ++ payload.remoteTrainerId
    if payload.awsBatch then "batch:" ++ payload.remoteTrainerId ++ ":" ++ payload.policy
    else match payload.device with
      | some device => trainerKey ++ ":" ++ device.type.value ++ ":" ++ device.indexText
      | none => trainerKey

inductive JobKind where
  | training (payload : TargetPayload)
  | datasetImport
  deriving DecidableEq

def JobKind.target : JobKind → String
  | .training payload => targetKey payload
  | .datasetImport => "dataset_import"

def targetIsBusy (target : String) (active : List String) : Bool :=
  active.contains target || (startswith target "remote:" &&
    active.any fun key => startswith key (target ++ ":") || startswith target (key ++ ":"))

inductive Reservation where
  | studio
  | trainer (id : String) (device : Option TrainingDevice)
  | batch (id policy : String)
  | imports
  deriving DecidableEq

/-- Two jobs cannot have the same reservation, nor a trainer as a whole and one of its devices. -/
inductive Reservation.Conflicts : Reservation → Reservation → Prop where
  | same (reservation : Reservation) : Conflicts reservation reservation
  | device (id : String) (device : TrainingDevice) : Conflicts (.trainer id none) (.trainer id (some device))
  | whole (id : String) (device : TrainingDevice) : Conflicts (.trainer id (some device)) (.trainer id none)

def JobKind.reservation : JobKind → Reservation
  | .training payload => match payload.trainingTarget with
    | .local => .studio
    | .remote =>
      if payload.awsBatch then .batch payload.remoteTrainerId payload.policy
      else .trainer payload.remoteTrainerId payload.device
  | .datasetImport => .imports

def Reservation.key : Reservation → String
  | .studio => "local"
  | .trainer id none => "remote:" ++ id
  | .trainer id (some device) => "remote:" ++ id ++ ":" ++ device.type.value ++ ":" ++ device.indexText
  | .batch id policy => "batch:" ++ id ++ ":" ++ policy
  | .imports => "dataset_import"

/-- A key that keeps a target from being started. -/
def Clash (target key : String) : Prop :=
  target = key ∨
    startswith target "remote:" = true ∧ (startswith key (target ++ ":") = true ∨ startswith target (key ++ ":") = true)

theorem targetIsBusy_iff {target : String} {active : List String} :
    targetIsBusy target active = true ↔ ∃ key ∈ active, Clash target key := by
  simp only [targetIsBusy, Clash, Bool.or_eq_true, Bool.and_eq_true, List.contains_iff_mem, List.any_eq_true]
  constructor
  · rintro (member | ⟨remote, key, member, overlaps⟩)
    · exact ⟨target, member, .inl rfl⟩
    · exact ⟨key, member, .inr ⟨remote, overlaps⟩⟩
  · rintro ⟨key, member, rfl | ⟨remote, overlaps⟩⟩
    · exact .inl member
    · exact .inr ⟨remote, key, member, overlaps⟩

theorem startswith_iff {text head : String} : startswith text head = true ↔ head.toList <+: text.toList :=
  List.isPrefixOf_iff_prefix

theorem startswith_append {head tail : String} : startswith (head ++ tail) head = true := by
  rw [startswith_iff, String.toList_append]
  exact List.prefix_append _ _

theorem startswith_trans {text middle head : String} (outer : startswith text middle = true)
    (inner : startswith middle head = true) : startswith text head = true :=
  startswith_iff.mpr ((startswith_iff.mp inner).trans (startswith_iff.mp outer))

theorem JobKind.target_eq (kind : JobKind) : kind.target = kind.reservation.key := by
  cases kind with
  | datasetImport => rfl
  | training payload =>
    simp only [target, targetKey, reservation]
    cases payload.trainingTarget with
    | «local» => rfl
    | remote =>
      cases payload.awsBatch with
      | true => rfl
      | false => cases payload.device <;> rfl

theorem head_of_startswith {text head : String} {first : Char} (starts : startswith text head = true)
    (same : head.toList.head? = some first) : text.toList.head? = some first := by
  obtain ⟨rest, eq⟩ := startswith_iff.mp starts
  rw [← eq, List.head?_append, same]
  rfl

namespace Reservation

def family : Reservation → String
  | .studio => "local"
  | .trainer _ _ => "remote:"
  | .batch _ _ => "batch:"
  | .imports => "dataset_import"

theorem startswith_family (reservation : Reservation) : startswith reservation.key reservation.family = true := by
  rcases reservation with _ | ⟨id, _ | device⟩ | ⟨id, policy⟩ | _
  · decide
  · exact startswith_append
  · simp only [key, String.append_assoc]
    exact startswith_append
  · simp only [key, String.append_assoc]
    exact startswith_append
  · decide

theorem remote_of_extended {reservation : Reservation} {text : String} (remote : startswith text "remote:" = true)
    (extended : startswith text (reservation.key ++ ":") = true) : startswith reservation.key "remote:" = true := by
  have family := startswith_trans (startswith_trans extended startswith_append) reservation.startswith_family
  have first : text.toList.head? = some 'r' := head_of_startswith remote (by decide)
  cases reservation with
  | trainer id device => exact (trainer id device).startswith_family
  | studio =>
    have other : text.toList.head? = some 'l' := head_of_startswith family (by decide)
    exact absurd (first.symm.trans other) (by decide)
  | batch id policy =>
    have other : text.toList.head? = some 'b' :=
      head_of_startswith family (show "batch:".toList.head? = some 'b' by decide)
    exact absurd (first.symm.trans other) (by decide)
  | imports =>
    have other : text.toList.head? = some 'd' := head_of_startswith family (by decide)
    exact absurd (first.symm.trans other) (by decide)

theorem clash_symm {a b : Reservation} (clash : Clash a.key b.key) : Clash b.key a.key := by
  rcases clash with same | ⟨remote, extended | extending⟩
  · exact .inl same.symm
  · refine .inr ⟨?_, .inr extended⟩
    exact startswith_trans (startswith_trans extended startswith_append) remote
  · exact .inr ⟨remote_of_extended remote extending, .inl extending⟩

theorem Conflicts.clash {a b : Reservation} (conflicts : a.Conflicts b) : Clash a.key b.key := by
  have device (id : String) (device : TrainingDevice) : Clash (trainer id none).key (trainer id (some device)).key := by
    refine .inr ⟨startswith_append, .inl ?_⟩
    simp only [key, String.append_assoc]
    rw [← String.append_assoc, ← String.append_assoc]
    exact startswith_append
  cases conflicts with
  | same => exact .inl rfl
  | device id training => exact device id training
  | whole id training => exact clash_symm (device id training)

end Reservation

theorem JobKind.clash_symm {a b : JobKind} (clash : Clash a.target b.target) : Clash b.target a.target := by
  rw [a.target_eq, b.target_eq] at *
  exact Reservation.clash_symm clash

theorem JobKind.clash_of_conflicts {a b : JobKind} (conflicts : a.reservation.Conflicts b.reservation) :
    Clash a.target b.target := by
  rw [a.target_eq, b.target_eq]
  exact conflicts.clash

end PhysicalAiStudio.Jobs
