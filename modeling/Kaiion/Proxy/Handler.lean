import Kaiion.Client.Configure
import Kaiion.Foundation.Interleaving
import Kaiion.Proxy.JobViews
import Kaiion.Proxy.ScheduledDirect

/-! The handlers of a request for a response and of a question about its route. Whatever they wait for
is an operation; what the store, the scheduler, the upstream and the workers reply is up to them. -/
namespace Kaiion.Proxy
open Durable Foundation Scheduling

/-- A scheduler is there only for an enabled policy that passed its checks. -/
structure Enabled where
  inner : Inner
  enabled : inner.policy.enabled = true
  validated : inner.policy.validate = .ok ()
  builtIn : inner.classify = heuristicClassify inner.policy.complexity

structure AppState where
  router : Router
  upstreamBaseUrl : String
  scheduler : Option Enabled
  parseHttpDate : String → Option Nat

inductive HandlerOp where
  /-- A wait of a live call. -/
  | live (op : Op)
  | checkIdempotency (authHash : String) (request : NormalizedRequest)
  | find (authHash requestHash : String)
  | enqueue (authHash provider : String) (request : NormalizedRequest)
  /-- The receiver shows a state each time it changes, until its worker is gone. -/
  | subscribe (job : Job) (auth : UpstreamAuth) (batchBody : Value)

abbrev HandlerOp.Reply : HandlerOp → Type
  | live op => op.Reply
  | checkIdempotency _ _ => Except ProxyError Unit
  | find _ _ => Except PersistenceError (Option Job)
  | enqueue _ _ _ => Except ProxyError Job
  | subscribe _ _ _ => List JobState

abbrev Handler := Prog.Fallible HandlerOp.Reply ProxyError

namespace Handler

def perform (op : HandlerOp) : Prog HandlerOp.Reply op.Reply := Prog.perform op

/-- A live call within a handler. -/
def embed {α : Type} : Live α → Prog HandlerOp.Reply α
  | .ret value => .ret value
  | .call op next => .call (.live op) fun reply => embed (next reply)

/-- What needs no waiting. -/
def pure {α : Type} (result : Except ProxyError α) : Handler α := ExceptT.mk (return result)

end Handler

inductive AnswerBody where
  | own (body : ResponseBody)
  /-- The upstream's body as it arrives. -/
  | upstream (upstream : Upstream)
  /-- The event stream of a job. -/
  | events (job : Job)

structure Answer where
  status : StatusCode
  headers : HeaderMap
  body : AnswerBody

def Answer.ofResponse (response : Response) : Answer := ⟨response.status, response.headers, .own response.body⟩

def ok200 : StatusCode := ⟨200, "200 OK"⟩

section Route
variable (router : Router) (headers : HeaderMap) (body : Value)

/-- The job this batch request already has. -/
def existingJob (auth : UpstreamAuth) : Option NormalizedRequest → Handler (Option Job)
  | none => return none
  | some request => do
    ExceptT.mk (Handler.perform (.checkIdempotency (auth.fingerprint router.crates) request))
    let found : Except PersistenceError (Option Job) ←
      ExceptT.lift (Handler.perform (.find (auth.fingerprint router.crates) request.requestHash))
    Handler.pure (found.mapError .persistence)

/-- The decision about a request that leaves it to the proxy. -/
def routeAuto : Handler RouteDecision := do
  let auth ← Handler.pure (UpstreamAuth.fromHeaders headers)
  let batchRequest ← Handler.pure (router.batchRequest headers body)
  let existing ← existingJob router auth batchRequest
  if existing.isSome then return { mode := .batch, reason := "existing_batch_job" }
  else do
    let providerBody ← Handler.pure (upstreamBody body)
    let decision := router.policy.decide router.crates providerBody
    if decision.mode = .batch && batchRequest.isNone then return { mode := .direct, reason := "batch_not_supported" }
    else return decision

/-- `route`. -/
def routeHandler : Handler RouteDecision := do
  let mode ← Handler.pure (resolveMode router.crates headers router.mode)
  if mode ≠ .auto then return { mode, reason := "explicit_mode" }
  else routeAuto router headers body

end Route

section Answering
variable (app : AppState) (headers : HeaderMap) (body : Value)

/-- `OpenAiClient::direct`. -/
def forward : Live (Except ProxyError Upstream) :=
  match upstreamBody body with
  | .error error => return .error error
  | .ok body => do
    match (← Prog.perform (Op.send headers body) : Outcome) with
    | .error error => return .error (.transport error)
    | .ok upstream => return .ok upstream

def directResponse : Handler Answer := do
  let _ ← Handler.pure (UpstreamAuth.fromHeaders headers)
  let upstream ← ExceptT.mk (Handler.embed (forward headers body))
  return { status := upstream.status
           headers := insertHeader (copyResponseHeaders upstream.headers) "x-kaiion-mode" (textHeader "direct")
           body := .upstream upstream }

/-- `HeaderValue::from_str`. -/
def headerFromStr (text : String) : Except ProxyError HeaderValue :=
  if (utf8 text).all isVisible then .ok (textHeader text) else .error (.internal "failed to parse header value")

def setBatchHeaders (jobId : JobId) (answer : Answer) : Except ProxyError Answer := do
  let value ← headerFromStr jobId.text
  return { answer with
    headers := insertHeader (insertHeader answer.headers "x-kaiion-mode" (textHeader "batch")) "x-kaiion-job-id" value }

/-- The loop of a caller that waits: the first terminal state that the receiver shows. -/
def awaitOutcome : List JobState → Except ProxyError StoredOutcome
  | [] => .error (.internal workerStopped)
  | .terminal outcome :: _ => .ok outcome
  | _ :: later => awaitOutcome later

def wantsStream (body : Value) : Bool := body.get "stream" = some (.bool true)

def outcomeAnswer (job : Job) (outcome : StoredOutcome) : Answer where
  status := ok200
  headers := [("content-type", textHeader "application/json")]
  body := .own (.json (responseValue outcome job.id))

def eventsAnswer (job : Job) : Answer where
  status := ok200
  headers := [("content-type", textHeader "text/event-stream"),
    ("cache-control", textHeader "no-cache, no-transform")]
  body := .events job

def batchResponse : Handler Answer := do
  let auth ← Handler.pure (UpstreamAuth.fromHeaders headers)
  let request ← Handler.pure (fromHeaders app.router.crates body app.upstreamBaseUrl headers)
  let job ← ExceptT.mk (Handler.perform (.enqueue (auth.fingerprint app.router.crates) app.router.provider request))
  let states : List JobState ← ExceptT.lift (Handler.perform (.subscribe job auth request.batchBody))
  if wantsStream body then Handler.pure (setBatchHeaders job.id (eventsAnswer job))
  else do
    let outcome ← Handler.pure (awaitOutcome states)
    Handler.pure (setBatchHeaders job.id (outcomeAnswer job outcome))

/-- The live call of this request behind the scheduler. -/
def Enabled.call (scheduler : Enabled) (requestedMode : Mode) : DirectCall where
  router := app.router
  scheduler := scheduler.inner
  parseHttpDate := app.parseHttpDate
  headers
  body
  requestedMode
  enabled := scheduler.enabled
  validated := scheduler.validated
  builtIn := scheduler.builtIn

/-- The route is no execution mode; `route_resolves` says that this is never so. -/
def unresolved : String := "entered unreachable code: routing resolves auto to an execution mode"

/-- A request that is to be answered live, with the reason for what became of it. -/
def answerLive (requestedMode : Mode) (reason : String) : Handler (String × Answer) :=
  match app.scheduler with
  | none => do return (reason, ← directResponse headers body)
  | some scheduler => do
    match ← ExceptT.mk (Handler.embed (scheduler.call app headers body requestedMode).scheduledDirectResponse) with
    | .live response | .unavailable response => return (reason, .ofResponse response)
    | .batch reason => return (reason, ← batchResponse app headers body)

/-- The match of `responses`. -/
def respond (requestedMode : Mode) (decision : RouteDecision) : Handler (String × Answer) :=
  match decision.mode with
  | .direct => answerLive app headers body requestedMode decision.reason
  | .batch => do return (decision.reason, ← batchResponse app headers body)
  | .auto => throw (.internal unresolved)

def responses : Handler Answer := do
  let requestedMode ← Handler.pure (resolveMode app.router.crates headers app.router.mode)
  let decision ← routeHandler app.router headers body
  let answered ← respond app headers body requestedMode decision
  return { answered.2 with headers := insertHeader answered.2.headers "x-kaiion-route-reason" (textHeader answered.1) }

end Answering

section Explaining
variable (app : AppState) (headers : HeaderMap) (body : Value)

structure Explanation where
  decision : RouteDecision
  enabled : Bool
  asyncAlias : Bool
  recommendation : Option String

/-- A recommendation that the request may follow changes the decision. -/
def Explanation.recommended (explanation : Explanation) (allowed : Bool) (recommendation : Option String) : Explanation :=
  match recommendation.filter (fun _ => allowed) with
  | some reason => { explanation with decision := { explanation.decision with mode := .batch, reason }, recommendation }
  | none => { explanation with recommendation }

def explain : Handler Explanation := do
  let _ ← Handler.pure (UpstreamAuth.fromHeaders headers)
  let requestedMode ← Handler.pure (resolveMode app.router.crates headers app.router.mode)
  let decision ← routeHandler app.router headers body
  let asyncAlias := ((body.get "model").bind Value.asStr).any fun model => (modelAlias model).2
  let explanation := { decision, enabled := app.scheduler.isSome, asyncAlias, recommendation := none }
  match app.scheduler.filter (fun _ => decision.mode = .direct) with
  | none => return explanation
  | some scheduler => do
    let request ← Handler.pure ((scheduler.call app headers body requestedMode).makeScheduleRequest 0 none)
    let recommendation : Option String ← ExceptT.lift (Handler.perform (.live (.preview request)))
    return explanation.recommended request.allowBatchFallback recommendation

def countValue : Option Nat → Value
  | some n => .number (.unsigned n)
  | none => .null

def costValue : Option Float → Value
  | some cost => if cost.isFinite then .number (.float cost.toBits.toNat) else .null
  | none => .null

/-- The answer of `explain_route`. -/
def Explanation.toValue (explanation : Explanation) : Value :=
  .object [
    ("estimated_batch_cost_usd", costValue explanation.decision.estimatedBatchCostUsd),
    ("estimated_direct_cost_usd", costValue explanation.decision.estimatedDirectCostUsd),
    ("estimated_direct_premium_usd", costValue explanation.decision.estimatedDirectPremiumUsd),
    ("estimated_input_tokens", countValue explanation.decision.estimatedInputTokens),
    ("mode", .string (Client.modeText explanation.decision.mode)),
    ("output_token_limit", countValue explanation.decision.outputTokenLimit),
    ("reason", .string explanation.decision.reason),
    ("scheduling", .object [("async_alias", .bool explanation.asyncAlias), ("enabled", .bool explanation.enabled),
      ("recommendation", match explanation.recommendation with
        | some reason => .string reason
        | none => .null)])]

def explainRoute : Handler Value := do return (← explain app headers body).toValue

end Explaining
end Kaiion.Proxy
