import Kaiion.Durable.JobStore

/-! What a client reads from the store: its own jobs and its own idempotency keys. -/
namespace Kaiion.Durable

structure JobSummary where
  id : String
  model : String
  status : String
  terminal : Bool
  deriving DecidableEq

/-- `job_requests JOIN jobs ON jobs.id = job_requests.job_id`. -/
def Database.joined (db : Database) : List (JobRow × RequestRow) :=
  db.jobRequests.flatMap fun request =>
    (db.jobs.filter (fun row => row.id = request.jobId)).map (fun row => (row, request))

/-- The jobs of an owner behind a cursor, in the order of their ids. -/
def Database.listOwned (db : Database) (authHash provider after : String) (limit : Nat) : List JobSummary :=
  (((db.joined.filter fun (row, request) => request.authHash = authHash && request.provider = provider &&
      after < row.id).map Prod.fst).mergeSort (fun a b => a.id ≤ b.id)).take (min limit 100) |>.map fun row =>
    { id := row.id, model := row.model, status := row.status.text, terminal := row.outcomeJson.isSome }

def Database.ownedJob (c : Codec) (db : Database) (id : JobId) (authHash provider : String) :
    Except ProxyError Job :=
  match db.joined.find? (fun (row, request) => row.id = id.text && request.authHash = authHash &&
      request.provider = provider) with
  | none => .error .notFound
  | some (row, _) => (row.tryFrom c).mapError .persistence

def Database.ownedRequest (c : Codec) (db : Database) (id : JobId) (authHash provider : String) :
    Except ProxyError (Job × Value) :=
  match db.jobRequests.find? (fun request => request.jobId = id.text && request.authHash = authHash &&
      request.provider = provider) with
  | none => .error .notFound
  | some request => do
    let job ← (db.get c id).mapError .persistence
    let body ← (c.parse request.bodyJson).mapError .json
    return (job, body)

def keyConflict : String := "Idempotency-Key was already used with a different request"

/-- `check_idempotency`: the key, if used before, belongs to this very request. -/
def Database.checkIdempotency (db : Database) (authHash : String) (request : NormalizedRequest) :
    Except ProxyError Unit :=
  match request.idempotencyHash with
  | none => .ok ()
  | some key =>
    match db.joined.find? (fun (_, stored) => stored.authHash = authHash && stored.idempotencyHash = some key) with
    | none => .ok ()
    | some (row, _) => if row.requestHash ≠ request.requestHash then .error (.conflict keyConflict) else .ok ()

end Kaiion.Durable
