import Mathlib.Logic.Function.Basic

/-! A job's row, and the two ways in which it is written.

`update_job_status` sets the status whatever it was. A merge writes a copy of the job that
was loaded earlier: it reads the row again and then sets the columns in which the copy
differs from what it has read, so a write that comes between the two is lost in such a
column. Progress, messages and times are left out; no write depends on them.
-/

set_option autoImplicit false

namespace PhysicalAiStudio.Jobs

inductive JobStatus where
  | pending
  | running
  | completed
  | failed
  | canceled
  deriving DecidableEq

def JobStatus.Finished : JobStatus → Prop
  | .completed | .failed | .canceled => True
  | .pending | .running => False

instance : (status : JobStatus) → Decidable status.Finished
  | .completed | .failed | .canceled => inferInstanceAs (Decidable True)
  | .pending | .running => inferInstanceAs (Decidable False)

@[grind =]
theorem JobStatus.finished_iff {status : JobStatus} :
    status.Finished ↔ status ≠ .pending ∧ status ≠ .running := by
  cases status <;> simp [JobStatus.Finished]

structure Row (Payload : Type) where
  status : JobStatus
  payload : Payload
  deriving DecidableEq

namespace Row

variable {Payload : Type} [DecidableEq Payload]

def merge (read written row : Row Payload) : Row Payload :=
  { status := if written.status = read.status then row.status else written.status
    payload := if written.payload = read.payload then row.payload else written.payload }

variable {read written row : Row Payload}

@[simp]
theorem merge_status :
    (merge read written row).status = if written.status = read.status then row.status else written.status := rfl

@[simp]
theorem merge_payload :
    (merge read written row).payload = if written.payload = read.payload then row.payload else written.payload := rfl

/-- A merge that reads the row it writes leaves the written copy. -/
theorem merge_self : merge row written row = written := by
  cases written
  simp only [merge, Row.mk.injEq]
  exact ⟨by split <;> simp [*], by split <;> simp [*]⟩

end Row

end PhysicalAiStudio.Jobs
