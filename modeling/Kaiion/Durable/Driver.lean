import Kaiion.Durable.BatchOutput
import Kaiion.Foundation.Resumption

/-! The batch worker of one job. Every await point of the source, and every value sent on the
job's watch channel, is an operation of a program; what the store and the provider reply is
decided by the system the program runs in. -/
namespace Kaiion.Durable
open Foundation

inductive Op where
  | uploadBatchFile (auth : UpstreamAuth) (id : JobId) (content : String)
  | createBatch (auth : UpstreamAuth) (inputFileId : FileId) (id : JobId)
  | findBatch (auth : UpstreamAuth) (id : JobId)
  | getBatch (auth : UpstreamAuth) (batchId : BatchId)
  | getFileContent (auth : UpstreamAuth) (fileId : String)
  | transition (t : Transition)
  | get (id : JobId)
  | publish (id : JobId) (state : JobState)
  | sleep

abbrev Op.Reply : Op → Type
  | uploadBatchFile _ _ _ => Except ProviderError FileId
  | createBatch _ _ _ => Except ProviderError BatchObject
  | findBatch _ _ => Except ProviderError (Option BatchObject)
  | getBatch _ _ => Except ProviderError BatchObject
  | getFileContent _ _ => Except ProviderError String
  | transition _ => Except PersistenceError JobState
  | get _ => Except PersistenceError Job
  | publish _ _ => Unit
  | sleep => Unit

abbrev Driver := Prog Op.Reply

def uploadBatchFile (auth : UpstreamAuth) (id : JobId) (content : String) :
    Driver (Except ProviderError FileId) := Prog.perform (Op.uploadBatchFile auth id content)

def createBatch (auth : UpstreamAuth) (inputFileId : FileId) (id : JobId) :
    Driver (Except ProviderError BatchObject) := Prog.perform (Op.createBatch auth inputFileId id)

def findBatch (auth : UpstreamAuth) (id : JobId) :
    Driver (Except ProviderError (Option BatchObject)) := Prog.perform (Op.findBatch auth id)

def getBatch (auth : UpstreamAuth) (batchId : BatchId) : Driver (Except ProviderError BatchObject) :=
  Prog.perform (Op.getBatch auth batchId)

def getFileContent (auth : UpstreamAuth) (fileId : String) : Driver (Except ProviderError String) :=
  Prog.perform (Op.getFileContent auth fileId)

def transition (t : Transition) : Driver (Except PersistenceError JobState) :=
  Prog.perform (Op.transition t)

def publish (id : JobId) (state : JobState) : Driver Unit := Prog.perform (Op.publish id state)

def sleep : Driver Unit := Prog.perform Op.sleep

/-- A transition as `advance` reports it. -/
def persist (t : Transition) : Driver (Except DriverError JobState) := do
  let reply ← transition t
  return reply.mapError classifyPersistence

/-- The request line uploaded for a job. -/
def batchLine (c : Codec) (job : Job) (requestBody : Value) : String :=
  c.print (.object [
    ("body", requestBody),
    ("custom_id", .string job.customId),
    ("method", .string "POST"),
    ("url", .string "/v1/responses")]) ++ "\n"

/-- The outcome a parsed batch response stands for. -/
def outcomeOf (c : Codec) (response : Value) : Except DriverError StoredOutcome :=
  match (response.get "status").bind Value.asStr with
  | some status =>
    if status = "completed" then .ok (.completed response)
    else if status = "failed" then .ok (.failed response)
    else if status = "incomplete" then .ok (.incomplete response)
    else .error (.permanent ("batch response has unsupported terminal status " ++ c.debugStr status))
  | none => .error (.permanent "batch response is missing status")

/-- The completed branch of `apply_batch_status`. -/
def applyCompleted (c : Codec) (auth : UpstreamAuth) (job : Job) (batch : BatchObject) :
    Driver (Except DriverError JobState) :=
  match batch.outputFileId, batch.errorFileId with
  | none, some fileId => do
    match ← getFileContent auth fileId with
    | .error error => return .error (classifyProvider error)
    | .ok content =>
      persist (.storeOutcome job.id job.state
        (.failed (normalizeBatchError c content job.customId job.model)))
  | none, none =>
    return .error (.permanent "completed batch has neither output_file_id nor error_file_id")
  | some fileId, _ => do
    match ← getFileContent auth fileId with
    | .error error => return .error (classifyProvider error)
    | .ok content =>
      match parseBatchOutput c content job.customId job.model with
      | .error error => return .error error
      | .ok response =>
        match outcomeOf c response with
        | .error error => return .error error
        | .ok outcome => persist (.storeOutcome job.id job.state outcome)

/-- Which outcome an unsuccessful batch status stores. -/
def unsuccessful (status : String) (value : Value) : StoredOutcome :=
  if status = "expired" then .expired value
  else if status = "cancelled" then .cancelled value
  else .failed value

def applyBatchStatus (c : Codec) (auth : UpstreamAuth) (job : Job) (batch : BatchObject) :
    Driver (Except DriverError JobState) :=
  if batch.status = "completed" then applyCompleted c auth job batch
  else if batch.status = "failed" ∨ batch.status = "expired" ∨ batch.status = "cancelled" then
    match batch.errorFileId with
    | some fileId => do
      match ← getFileContent auth fileId with
      | .error error => return .error (classifyProvider error)
      | .ok content =>
        persist (.storeOutcome job.id job.state
          (unsuccessful batch.status (normalizeBatchError c content job.customId job.model)))
    | none =>
      persist (.storeOutcome job.id job.state (unsuccessful batch.status
        (failedResponse job.model ("batch " ++ batch.id ++ " ended with status " ++ batch.status))))
  else return .ok job.state

/-- `JobDriver::advance`. -/
def advance (c : Codec) (auth : UpstreamAuth) (requestBody : Value) (job : Job) :
    Driver (Except DriverError JobState) :=
  match job.state with
  | .queued => do
    match ← uploadBatchFile auth job.id (batchLine c job requestBody) with
    | .error error => return .error (classifyProvider error)
    | .ok fileId => persist (.markUploaded job.id fileId)
  | .uploaded inputFileId => do
    match ← transition (.beginSubmission job.id inputFileId) with
    | .error error => return .error (classifyPersistence error)
    | .ok submitting =>
      match ← createBatch auth inputFileId job.id with
      | .ok batch => persist (.markSubmitted job.id submitting ⟨batch.id⟩)
      | .error error =>
        if error.retryable then persist (.markSubmissionUncertain job.id)
        else return .error (.permanent error.message)
  | .submitting _ _ => persist (.markSubmissionUncertain job.id)
  | .submissionUncertain _ _ => do
    match ← findBatch auth job.id with
    | .ok (some batch) => persist (.markSubmitted job.id job.state ⟨batch.id⟩)
    | .ok none => return .ok job.state
    | .error error => return .error (classifyProvider error)
  | .submitted batchId => do
    match ← getBatch auth batchId with
    | .error error => return .error (classifyProvider error)
    | .ok batch => applyBatchStatus c auth job batch
  | .terminal _ => return .ok job.state

/-- `driver_state`: the stored state, or nothing when it cannot be read. -/
def driverState (id : JobId) : Driver (Option JobState) := do
  match (← Prog.perform (Op.get id) : Except PersistenceError Job) with
  | .ok job => return some job.state
  | .error _ => return none

/-- How one turn of the loop in `JobDriver::run` ends. -/
inductive Turn where
  | again (job : Job)
  | stop

/-- Publish a state and leave the loop exactly when it is terminal. -/
def publishAndGo (job : Job) (state : JobState) : Driver Turn := do
  publish job.id state
  if state.isTerminal then return .stop else return .again { job with state }

/-- The rest of a turn of `JobDriver::run`, after `advance` has returned. -/
def settle (job : Job) : Except DriverError JobState → Driver Turn
  | .ok next =>
    if next ≠ job.state then publishAndGo job next
    else if job.state.isTerminal then return .stop
    else do
      sleep
      return .again job
  | .error .conflict => do
    match ← driverState job.id with
    | some state => publishAndGo job state
    | none =>
      sleep
      return .again job
  | .error (.retryable _) => do
    sleep
    return .again job
  | .error (.permanent error) => do
    match ← transition (.storeOutcome job.id job.state (.failed (failedResponse job.model error))) with
    | .ok state =>
      publish job.id state
      return .stop
    | .error error =>
      if error.isConflict then
        match ← driverState job.id with
        | some state => publishAndGo job state
        | none => return .again job
      else
        sleep
        return .again job

end Kaiion.Durable
