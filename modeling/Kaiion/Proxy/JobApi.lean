import Kaiion.Durable.Delivery
import Kaiion.Durable.Tenancy
import Kaiion.Proxy.Handler
import Kaiion.Proxy.JobPages

/-! The handlers of the job API and the start of a process, over the store and the workers of the process:
each performs one statement or takes the workers' lock once at a time, and everything else goes on in
between. -/
namespace Kaiion
open Durable Foundation

/-- The error as a client gets it. -/
def ProxyError.code : ProxyError → String
  | .badRequest _ => "invalid_request"
  | .unauthorized => "unauthorized"
  | .notFound => "not_found"
  | .conflict _ => "conflict"
  | .transport _ => "upstream_transport_error"
  | .persistence _ | .database _ | .migration _ | .json _ | .internal _ => "internal_error"

def ProxyError.status : ProxyError → StatusCode
  | .badRequest _ => ⟨400, "400 Bad Request"⟩
  | .unauthorized => ⟨401, "401 Unauthorized"⟩
  | .notFound => ⟨404, "404 Not Found"⟩
  | .conflict _ => ⟨409, "409 Conflict"⟩
  | .transport _ => ⟨502, "502 Bad Gateway"⟩
  | .persistence _ | .database _ | .migration _ | .json _ | .internal _ => ⟨500, "500 Internal Server Error"⟩

theorem ProxyError.status_unsuccessful (error : ProxyError) : error.status.isSuccess = false := by
  cases error <;> rfl

namespace Proxy

def jsonResponse (status : StatusCode) (headers : HeaderMap) (value : Value) : Response :=
  ⟨status, ("content-type", textHeader "application/json") :: headers, .json value⟩

/-- `into_response`. -/
def errorResponse (error : ProxyError) : Response :=
  jsonResponse error.status [] (.object [("error", .object [("code", .string error.code),
    ("message", .string error.message), ("type", .string "kaiion_error")])])

/-- What a handler of the job API asks of the store and the workers. -/
inductive JobOp where
  /-- `enqueue` up to its commit. -/
  | register (authHash provider : String) (request : NormalizedRequest)
  | get (id : JobId)
  | ownedJob (id : JobId) (authHash provider : String)
  /-- The first query of `owned_request`. -/
  | ownedBody (id : JobId) (authHash provider : String)
  | listOwned (authHash provider after : String) (limit : Nat)
  | subscribe (job : Job) (auth : UpstreamAuth) (requestBody : Value)

abbrev JobOp.Reply : JobOp → Type
  | register _ _ _ => Except ProxyError JobId
  | get _ => Except PersistenceError Job
  | ownedJob _ _ _ => Except ProxyError Job
  | ownedBody _ _ _ => Except ProxyError (Option String)
  | listOwned _ _ _ _ => Except ProxyError (List JobSummary)
  | subscribe _ _ _ => Receiver

abbrev JobHandler := Prog.Fallible JobOp.Reply ProxyError

namespace JobApi

def perform (op : JobOp) : Prog JobOp.Reply op.Reply := Prog.perform op

/-- What needs no waiting. -/
def given {α : Type} (result : Except ProxyError α) : JobHandler α := ExceptT.mk (return result)

def get (id : JobId) : JobHandler Job := do
  let job : Except PersistenceError Job ← ExceptT.lift (perform (.get id))
  given (job.mapError .persistence)

def enqueue (authHash provider : String) (request : NormalizedRequest) : JobHandler Job := do
  let id ← ExceptT.mk (perform (.register authHash provider request))
  get id

def ownedRequest (c : Codec) (id : JobId) (authHash provider : String) : JobHandler (Job × Value) := do
  let stored : Option String ← ExceptT.mk (perform (.ownedBody id authHash provider))
  let text ← given (okOr stored .notFound)
  let job ← get id
  let body ← given ((c.parse text).mapError .json)
  return (job, body)

def subscribe (job : Job) (auth : UpstreamAuth) (requestBody : Value) : JobHandler Receiver :=
  ExceptT.lift (perform (.subscribe job auth requestBody))

def accepted : StatusCode := ⟨202, "202 Accepted"⟩

section Handlers
variable (app : AppState) (headers : HeaderMap)

def list (after : String) : JobHandler Response := do
  let auth ← given (UpstreamAuth.fromHeaders headers)
  let jobs : List JobSummary ←
    ExceptT.mk (perform (.listOwned (auth.fingerprint app.router.crates) app.router.provider after 100))
  return jsonResponse ok200 [] (jobsView jobs)

/-- With one statement at this store, the handler answers with the page of the job list. -/
theorem list_eval {db : Database} (replies : (op : JobOp) → op.Reply) (hlist : ∀ authHash provider after limit,
    replies (.listOwned authHash provider after limit) = .ok (db.listOwned authHash provider after limit)) (after : String) :
    (list app headers after).run.eval replies =
      (listJobs app.router.crates db app.router.provider headers after).map (jsonResponse ok200 []) := by
  unfold list listJobs
  rw [Prog.eval_andThen]
  cases UpstreamAuth.fromHeaders headers with
  | error error => rfl
  | ok auth =>
    change Prog.eval replies (ExceptT.run (_ >>= _)) = _
    rw [Prog.eval_andThen]
    change Except.bind (replies (.listOwned _ _ after 100)) _ = _
    rw [hlist]
    rfl

def submit (pollIntervalSeconds : Nat) (body : Value) : JobHandler Response := do
  let auth ← given (UpstreamAuth.fromHeaders headers)
  let request ← given (fromHeaders app.router.crates body app.upstreamBaseUrl headers)
  let job ← enqueue (auth.fingerprint app.router.crates) app.router.provider request
  let _ ← subscribe job auth request.batchBody
  return jsonResponse accepted [("location", textHeader ("/v1/kaiion/jobs/" ++ job.id.text)),
    ("retry-after", textHeader (toString (max pollIntervalSeconds 1)))] (jobView job)

def getJob (id : JobId) : JobHandler Response := do
  let auth ← given (UpstreamAuth.fromHeaders headers)
  let job : Job ← ExceptT.mk (perform (.ownedJob id (auth.fingerprint app.router.crates) app.router.provider))
  return jsonResponse ok200 [] (jobView job)

def resume (id : JobId) : JobHandler Response := do
  let auth ← given (UpstreamAuth.fromHeaders headers)
  let (job, body) ← ownedRequest app.router.crates.json id (auth.fingerprint app.router.crates) app.router.provider
  let _ ← subscribe job auth body
  return jsonResponse accepted [] (jobView job)

end Handlers

section Start
variable (crates : Crates) (provider : String) (auth : UpstreamAuth)

def resumeJobs : List JobSummary → JobHandler Unit
  | [] => return
  | summary :: later => do
    if !summary.terminal then
      let (job, body) ← ownedRequest crates.json ⟨summary.id⟩ (auth.fingerprint crates) provider
      let _ ← subscribe job auth body
    resumeJobs later

/-- The loop of `resume_from_env`; `none` when it is not through after so many pages. -/
def resumePages : Nat → String → JobHandler (Option Unit)
  | 0, _ => return none
  | pages + 1, after => do
    let jobs : List JobSummary ← ExceptT.mk (perform (.listOwned (auth.fingerprint crates) provider after 100))
    match jobs.getLast? with
    | none => return some ()
    | some last => do
      resumeJobs crates provider auth jobs
      resumePages pages last.id

end Start

def resumeFromEnv (crates : Crates) (provider : String) (env : String → Option String) (pages : Nat) :
    JobHandler (Option Unit) := do
  let auth ← given (authFromEnv env)
  resumePages crates provider auth pages ""

end JobApi

/-- A query returns what it finds, unless it fails. -/
def Queried {α : Type} (value reply : Except ProxyError α) : Prop :=
  reply = value ∨ ∃ message, reply = .error (.database message)

def JobOp.Answers (c : Codec) : (op : JobOp) → Registry → op.Reply → Registry → Prop
  | .register authHash provider request, a, reply, b => ∃ uuid, uuid ∉ a.fleet.world.db.jobs.map JobRow.id ∧
      ∃ (fault : Fault) (db : Database), fault.apply .database a.fleet.world.db
        (a.fleet.world.db.register c uuid authHash provider request) = (db, reply) ∧ b = a.store db
  | .get id, a, reply, b => (∃ job, a.fleet.world.db.get c id = .ok job ∧ reply = .ok job ∧ b = a.hold job) ∨
      b = a ∧ ∃ error, reply = .error error
  | .ownedJob id authHash provider, a, reply, b => b = a ∧ Queried (a.fleet.world.db.ownedJob c id authHash provider) reply
  | .ownedBody id authHash provider, a, reply, b =>
    b = a ∧ Queried (.ok (a.fleet.world.db.ownedBody id authHash provider)) reply
  | .listOwned authHash provider after limit, a, reply, b =>
      b = a ∧ Queried (.ok (a.fleet.world.db.listOwned authHash provider after limit)) reply
  | .subscribe job auth requestBody, a, receiver, b => job ∈ a.fleet.copies ∧ b = a.subscribe c auth requestBody job ∧
      b.receivers.head? = some receiver

end Proxy
end Kaiion
