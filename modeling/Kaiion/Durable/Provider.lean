import Kaiion.Durable.Database

/-! What the batch provider answers and how the driver classifies failures. -/
namespace Kaiion.Durable

/-- An HTTP status with its rendered text. -/
structure StatusCode where
  code : Nat
  text : String
  deriving DecidableEq, Repr

def StatusCode.isSuccess (status : StatusCode) : Bool := 200 ≤ status.code && status.code < 300

def StatusCode.isServerError (status : StatusCode) : Bool := 500 ≤ status.code && status.code < 600

inductive ProviderError where
  | transport (message : String)
  | retryableHttp (status : StatusCode) (body : String)
  | permanentHttp (status : StatusCode) (body : String)
  | protocol (message : String)
  | outputNotVisible (status : StatusCode) (body : String)
  deriving DecidableEq, Repr

def ProviderError.retryable : ProviderError → Bool
  | .transport _ | .retryableHttp _ _ | .outputNotVisible _ _ => true
  | .permanentHttp _ _ | .protocol _ => false

def ProviderError.message : ProviderError → String
  | .transport message => "provider transport failure: " ++ message
  | .retryableHttp status body => "provider returned retryable HTTP " ++ status.text ++ ": " ++ body
  | .permanentHttp status body => "provider returned permanent HTTP " ++ status.text ++ ": " ++ body
  | .protocol message => "provider protocol violation: " ++ message
  | .outputNotVisible status body =>
      "provider output file is not visible yet (HTTP " ++ status.text ++ "): " ++ body

/-- The error an unsuccessful reply is turned into. -/
def classifyStatus (status : StatusCode) (body : String) : ProviderError :=
  if status.isSuccess then .protocol "successful response could not be decoded"
  else if status.code = 429 || status.isServerError then .retryableHttp status body
  else .permanentHttp status body

structure BatchObject where
  id : String
  status : String
  outputFileId : Option String
  errorFileId : Option String
  metadata : Option Value

structure UpstreamAuth where
  authorization : String
  organization : Option String
  project : Option String
  deriving DecidableEq, Repr

inductive DriverError where
  | conflict
  | retryable (message : String)
  | permanent (message : String)
  deriving DecidableEq, Repr

def classifyProvider (error : ProviderError) : DriverError :=
  if error.retryable then .retryable error.message else .permanent error.message

def classifyPersistence (error : PersistenceError) : DriverError :=
  if error.isConflict then .conflict else .retryable error.message

/-- A store error never ends a job. -/
theorem classifyPersistence_ne_permanent (error : PersistenceError) (message : String) :
    classifyPersistence error ≠ .permanent message := by
  unfold classifyPersistence
  split <;> simp

end Kaiion.Durable
