import Kaiion.Json.Value

/-! Job identities and the typed state of a durable job. -/
namespace Kaiion.Durable

structure JobId where
  text : String
  deriving DecidableEq, Repr

structure FileId where
  text : String
  deriving DecidableEq, Repr

structure BatchId where
  text : String
  deriving DecidableEq, Repr

structure Timestamp where
  text : String
  deriving DecidableEq, Repr

inductive StoredOutcome where
  | completed (value : Value)
  | failed (value : Value)
  | incomplete (value : Value)
  | expired (value : Value)
  | cancelled (value : Value)
  deriving DecidableEq

inductive JobState where
  | queued
  | uploaded (inputFileId : FileId)
  | submitting (inputFileId : FileId) (startedAt : Timestamp)
  | submissionUncertain (inputFileId : FileId) (startedAt : Timestamp)
  | submitted (batchId : BatchId)
  | terminal (outcome : StoredOutcome)
  deriving DecidableEq

def JobState.isTerminal : JobState → Bool
  | .terminal _ => true
  | _ => false

structure Job where
  id : JobId
  model : String
  state : JobState
  deriving DecidableEq

def Job.customId (job : Job) : String := "kaiion-" ++ job.id.text

/-- The status column of the jobs table; its CHECK admits these ten texts only. -/
inductive Status where
  | queued | uploaded | submitting | submissionUncertain | submitted
  | completed | failed | incomplete | expired | cancelled
  deriving DecidableEq, Repr

def Status.text : Status → String
  | queued => "queued"
  | uploaded => "uploaded"
  | submitting => "submitting"
  | submissionUncertain => "submission_uncertain"
  | submitted => "submitted"
  | completed => "completed"
  | failed => "failed"
  | incomplete => "incomplete"
  | expired => "expired"
  | cancelled => "cancelled"

def statusOf : JobState → Status
  | .queued => .queued
  | .uploaded _ => .uploaded
  | .submitting _ _ => .submitting
  | .submissionUncertain _ _ => .submissionUncertain
  | .submitted _ => .submitted
  | .terminal (.completed _) => .completed
  | .terminal (.failed _) => .failed
  | .terminal (.incomplete _) => .incomplete
  | .terminal (.expired _) => .expired
  | .terminal (.cancelled _) => .cancelled

def encodeOutcome : StoredOutcome → Status × Value
  | .completed value => (.completed, value)
  | .failed value => (.failed, value)
  | .incomplete value => (.incomplete, value)
  | .expired value => (.expired, value)
  | .cancelled value => (.cancelled, value)

/-- Position of a status in the durable order
queued < uploaded < submitting < submission_uncertain < submitted < terminal. -/
def Status.stage : Status → Nat
  | queued => 0
  | uploaded => 1
  | submitting => 2
  | submissionUncertain => 3
  | submitted => 4
  | completed | failed | incomplete | expired | cancelled => 5

def JobState.stage (state : JobState) : Nat := (statusOf state).stage

theorem Status.stage_le (status : Status) : status.stage ≤ 5 := by cases status <;> decide

theorem statusOf_terminal (outcome : StoredOutcome) :
    statusOf (.terminal outcome) = (encodeOutcome outcome).1 := by cases outcome <;> rfl

/-- Terminal states are exactly those at the last stage. -/
theorem JobState.isTerminal_iff (state : JobState) : state.isTerminal = true ↔ state.stage = 5 := by
  cases state with
  | terminal outcome => cases outcome <;> simp [isTerminal, stage, statusOf, Status.stage]
  | _ => simp [isTerminal, stage, statusOf, Status.stage]

end Kaiion.Durable
