import Kaiion.Foundation.Trace
import Kaiion.Proxy.Route
import Kaiion.Scheduling.Section

/-! The live call of a request behind the scheduler, with its retries and its ways into Batch. Every
await point is an operation; what the scheduler and the upstream reply is up to them. -/
namespace Kaiion.Proxy
open Durable Foundation Scheduling

/-- An upstream response whose body is still unread. -/
structure Upstream where
  status : StatusCode
  headers : HeaderMap

/-- What becomes of one upstream request. -/
abbrev Outcome := Except TransportError Upstream

inductive Op where
  /-- The monotonic clock. -/
  | now
  /-- The wall clock. -/
  | systemTime
  | preview (request : ScheduleRequest)
  /-- `acquire` under a timeout; no reply means the time was up. -/
  | acquire (remaining : Nat) (request : ScheduleRequest)
  | send (headers : HeaderMap) (body : Value)
  /-- The rest of a response body. -/
  | bytes (upstream : Upstream)
  | complete (permit : SchedulePermit) (inputTokens outputTokens : Option Nat) (cacheReadHit : Option Bool)
  | abort (permit : SchedulePermit)

abbrev Op.Reply : Op → Type
  | now | systemTime => Nat
  | preview _ => Option String
  | acquire _ _ => Option (Except String ScheduleOutcome)
  | send _ _ => Outcome
  | bytes _ => Except TransportError (List UInt8)
  | complete _ _ _ _ | abort _ => Unit

abbrev Live := Prog Op.Reply

inductive ResponseBody where
  | json (value : Value)
  | bytes (bytes : List UInt8)
  /-- The upstream body as it arrives; the permit is completed by whoever reads it. -/
  | stream (permit : SchedulePermit)

structure Response where
  status : StatusCode
  headers : HeaderMap
  body : ResponseBody

inductive ScheduledDirect where
  | live (response : Response)
  | batch (reason : String)
  | unavailable (response : Response)

/-- Replace all headers of this name. -/
def insertHeader (headers : HeaderMap) (name : String) (value : HeaderValue) : HeaderMap :=
  headers.filter (fun header => header.1 ≠ name) ++ [(name, value)]

def textHeader (text : String) : HeaderValue := ⟨utf8 text⟩

def copyResponseHeaders (source : HeaderMap) : HeaderMap :=
  source.filter fun header =>
    header.1 ∉ ["connection", "content-length", "transfer-encoding", "upgrade"]

/-- `str::trim`. -/
def trim (text : String) : String :=
  .ofList ((text.toList.dropWhile isWhitespace).reverse.dropWhile isWhitespace).reverse

/-- `str::parse::<u64>`. -/
def parseU64 (text : String) : Option Nat :=
  let digits := match text.toList with
    | '+' :: rest => rest
    | chars => chars
  if digits.isEmpty || !digits.all Char.isDigit then none
  else
    let value := digits.foldl (fun value digit => value * 10 + (digit.toNat - 48)) 0
    if value < 2 ^ 64 then some value else none

/-- `retry_after`; an HTTP date is a delay from the wall clock. -/
def retryAfter (parseHttpDate : String → Option Nat) (systemTime : Nat) (headers : HeaderMap) : Option Nat :=
  ((headers.get "retry-after").bind HeaderValue.toStr).bind fun text =>
    match parseU64 (trim text) with
    | some seconds => some (fromSecs seconds)
    | none => (parseHttpDate (trim text)).map (· - systemTime)

def tooManyRequests : Nat := 429

def unavailableMessage (reason : String) : Value :=
  .object [("error", .object [
    ("code", .string "scheduling_unavailable"),
    ("message", .string ("scheduled live request could not be dispatched: " ++ reason)),
    ("type", .string "kaiion_error")])]

/-- `scheduling_unavailable`. -/
def schedulingUnavailable (reason : String) (retryAfter : Option Nat) : Response :=
  let headers : HeaderMap := [("content-type", textHeader "application/json")]
  let headers := match retryAfter.filter (fun delay => delay ≠ 0) with
    | some delay => insertHeader headers "retry-after" (textHeader (toString (max (delay / 1000000000) 1)))
    | none => headers
  { status := ⟨503, "503 Service Unavailable"⟩
    headers := insertHeader headers "x-kaiion-mode" (textHeader "direct")
    body := .json (unavailableMessage reason) }

def isEventStream (headers : HeaderMap) : Bool :=
  ((headers.get "content-type").bind HeaderValue.toStr).any fun value =>
    "text/event-stream".toList.isPrefixOf (value.toList.map Char.toLower)

/-- A live request behind an enabled scheduler. The scheduler was built from a policy that passed its
checks, with the built-in classifier. -/
structure DirectCall where
  router : Router
  scheduler : Inner
  parseHttpDate : String → Option Nat
  headers : HeaderMap
  body : Value
  requestedMode : Mode
  enabled : scheduler.policy.enabled = true
  validated : scheduler.policy.validate = .ok ()
  builtIn : scheduler.classify = heuristicClassify scheduler.policy.complexity

namespace DirectCall
variable (call : DirectCall)

def interaction (body : Value) : InteractionKind :=
  if isToolOutput body then .toolOutput else if isUserPrompt body then .userPrompt else .unknown

/-- Only an auto request that Batch supports may fall back to it. -/
def allowBatchFallback : Except ProxyError Bool :=
  if call.requestedMode = .auto then batchSupported call.router.crates call.body call.headers else .ok false

/-- `make_schedule_request`. -/
def makeScheduleRequest (attempt : Nat) (upstreamRetryAfter : Option Nat) : Except ProxyError ScheduleRequest := do
  let crates := call.router.crates
  let auth ← UpstreamAuth.fromHeaders call.headers
  let requested ← okOr ((call.body.get "model").bind Value.asStr) (.badRequest "missing model")
  refuse ((modelAlias requested).1 = "") "async- model alias must include an upstream model name"
  let tokens := estimateTokens crates call.body
  let allowBatchFallback ← call.allowBatchFallback
  let sessionId ← schedulingSessionId crates call.body call.headers
  let body ← upstreamBody call.body
  return { provider := call.router.provider, authScope := auth.fingerprint crates, model := (modelAlias requested).1
           sessionId, inputTokens := tokens.1, outputTokens := tokens.2, interaction := interaction call.body
           asyncAlias := (modelAlias requested).2, cacheReadHit := none, retryAttempt := attempt
           upstreamRetryAfter, allowBatchFallback, body := some body }

/-- `OpenAiClient::direct`. -/
def direct : Live (Except ProxyError Upstream) :=
  match upstreamBody call.body with
  | .error error => return .error error
  | .ok body => do
    match (← Prog.perform (Op.send call.headers body) : Outcome) with
    | .error error => return .error (.transport error)
    | .ok upstream => return .ok upstream

/-- The usage a JSON body reports. -/
def bodyUsage (bytes : List UInt8) : Option Nat × Option Nat × Option Bool :=
  (((String.fromUTF8? ⟨bytes.toArray⟩).bind (fun text => (call.router.crates.json.parse text).toOption)).map
    responseUsage).getD (none, none, none)

def complete (permit : SchedulePermit) (usage : Option Nat × Option Nat × Option Bool) : Live Unit :=
  Prog.perform (Op.complete permit usage.1 usage.2.1 usage.2.2)

/-- `scheduled_upstream_response`. -/
def scheduledUpstreamResponse (upstream : Upstream) (permit : SchedulePermit) : Live (Except ProxyError Response) :=
  let headers := insertHeader (copyResponseHeaders upstream.headers) "x-kaiion-mode" (textHeader "direct")
  if isEventStream upstream.headers then
    return .ok { status := upstream.status, headers, body := .stream permit }
  else do
    match (← Prog.perform (Op.bytes upstream) : Except TransportError (List UInt8)) with
    | .error error =>
      complete permit (none, none, none)
      return .error (.transport error)
    | .ok bytes =>
      complete permit (call.bodyUsage bytes)
      return .ok { status := upstream.status, headers, body := .bytes bytes }

def serve (upstream : Upstream) (permit : SchedulePermit) : Live (Except ProxyError ScheduledDirect) := do
  return (← call.scheduledUpstreamResponse upstream permit).map .live

/-- The Batch recommendation, if the request may follow it, or else this. -/
def batchOr (request : ScheduleRequest) (otherwise : Live (Except ProxyError ScheduledDirect)) :
    Live (Except ProxyError ScheduledDirect) :=
  if request.allowBatchFallback then do
    match (← Prog.perform (Op.preview request) : Option String) with
    | some reason => return .ok (.batch reason)
    | none => otherwise
  else otherwise

/-- The answer of a request that was not sent. -/
def unavailable (deadline : Nat) (reason : String) (retryAfter : Option Nat) :
    Live (Except ProxyError ScheduledDirect) := do
  let now : Nat ← Prog.perform Op.now
  return .ok (.unavailable (schedulingUnavailable reason (retryAfter.filter (fun delay => delay ≤ deadline - now))))

def expired : Live (Except ProxyError ScheduledDirect) :=
  return .ok (.unavailable (schedulingUnavailable "max_wait_exceeded" none))

/-- The next attempt, with the delay the upstream asked for, unless this was the last one. -/
abbrev Again := Option (ScheduleRequest → Option Nat → Live (Except ProxyError ScheduledDirect))

/-- A request that may be retried although the upstream answered. -/
def retryable (upstream : Upstream) : Bool :=
  upstream.status.code = tooManyRequests ||
    (upstream.status.isServerError && (call.headers.get idempotencyHeader).isSome)

/-- What follows an answer of the upstream. -/
def answered (deadline : Nat) (again : Again) (request : ScheduleRequest) (permit : SchedulePermit)
    (upstream : Upstream) : Live (Except ProxyError ScheduledDirect) :=
  match again.filter (fun _ => call.retryable upstream) with
  | none => call.serve upstream permit
  | some again => do
    let limited := decide (upstream.status.code = tooManyRequests)
    let systemTime : Nat ← Prog.perform Op.systemTime
    let delay := retryAfter call.parseHttpDate systemTime upstream.headers
    let now : Nat ← Prog.perform Op.now
    if delay.any (fun delay => deadline - now < delay) then
      if limited && request.allowBatchFallback then do
        match (← Prog.perform (Op.preview request) : Option String) with
        | some _ =>
          complete permit (some 0, some 0, none)
          return .ok (.batch "provider_retry_after_batch_fallback")
        | none => call.serve upstream permit
      else call.serve upstream permit
    else do
      complete permit (if limited then (some 0, some 0, none) else (none, none, none))
      again request delay

/-- What follows a request that got no answer. -/
def failed (again : Again) (request : ScheduleRequest) (permit : SchedulePermit) (error : ProxyError) :
    Live (Except ProxyError ScheduledDirect) :=
  match error with
  | .transport ⟨true, _⟩ => do
    Prog.perform (Op.abort permit)
    match again with
    | some again => again request none
    | none => return .error error
  | _ => do
    complete permit (none, none, none)
    return .error error

/-- One round of the loop in `scheduled_direct_response`. -/
def attempt (deadline : Nat) (again : Again) (attempt : Nat) (last : ScheduleRequest) (upstreamRetryAfter : Option Nat) :
    Live (Except ProxyError ScheduledDirect) := do
  let now : Nat ← Prog.perform Op.now
  if deadline - now = 0 then batchOr last expired
  else
    match call.makeScheduleRequest attempt upstreamRetryAfter with
    | .error error => return .error error
    | .ok request => do
      match (← Prog.perform (Op.acquire (deadline - now) request) : Option (Except String ScheduleOutcome)) with
      | none => batchOr request expired
      | some (.error error) => return .error (.internal error)
      | some (.ok (.dispatch permit)) => do
        match ← call.direct with
        | .ok upstream => call.answered deadline again request permit upstream
        | .error error => failed again request permit error
      | some (.ok (.recommendBatch reason retryAfter)) =>
        if request.allowBatchFallback then return .ok (.batch reason)
        else unavailable deadline "batch_fallback_not_allowed" retryAfter
      | some (.ok (.retryExhausted reason retryAfter)) =>
        batchOr request (unavailable deadline reason retryAfter)

/-- The loop, with `retries` attempts left after this one. -/
def attempts (deadline : Nat) : (retries number : Nat) → (last : ScheduleRequest) →
    (upstreamRetryAfter : Option Nat) → Live (Except ProxyError ScheduledDirect)
  | 0, number, last, upstreamRetryAfter => call.attempt deadline none number last upstreamRetryAfter
  | retries + 1, number, last, upstreamRetryAfter =>
    call.attempt deadline (some (fun last delay => attempts deadline retries (number + 1) last delay)) number last
      upstreamRetryAfter

/-- `scheduled_direct_response`. -/
def scheduledDirectResponse : Live (Except ProxyError ScheduledDirect) :=
  match call.makeScheduleRequest 0 none with
  | .error error => return .error error
  | .ok request => batchOr request do
    let now : Nat ← Prog.perform Op.now
    let policy := call.scheduler.policy
    call.attempts (now + policy.maxWait request.asyncAlias) policy.maxRetries 0 request none

end DirectCall
end Kaiion.Proxy
