import Kaiion.Scheduling.Dispatch

/-! The critical sections of the scheduler: everything its methods and guards do under the lock. -/
namespace Kaiion.Scheduling

/-- A scheduler with the built-in classifier that rounds no duration and sees only empty bodies. -/
def Inner.plain (policy : SchedulingPolicy) : Inner :=
  { policy, classify := heuristicClassify policy.complexity
    durationForRate := fun rate => 1000000000 / rate
    durationForTokens := fun tokens window cap => tokens * window * 1000000000 / cap
    print := fun _ => "" }

/-- A request that says nothing about itself but where it goes. -/
def ScheduleRequest.plain (provider authScope model : String) : ScheduleRequest :=
  { provider, authScope, model, sessionId := none, inputTokens := 0, outputTokens := 0
    interaction := .unknown, asyncAlias := false, cacheReadHit := none, retryAttempt := 0
    upstreamRetryAfter := none, allowBatchFallback := false, body := none }

/-- No receiver is dropped while a section runs. -/
def undisturbed : Nat → Closings := fun _ _ _ => false

/-- The serialized size a queued request is charged. -/
def requestBytes (inner : Inner) (request : ScheduleRequest) : Nat :=
  (request.body.map (fun body => (inner.print body).utf8ByteSize)).getD 0

/-- The request `acquire` works with: a zero output estimate takes the default. -/
def prepare (inner : Inner) (request : ScheduleRequest) : ScheduleRequest :=
  if request.outputTokens = 0 then { request with outputTokens := inner.policy.defaultOutputTokens }
  else request

/-- `acquire` refuses requests with blank names. -/
def named (request : ScheduleRequest) : Bool :=
  !isBlank request.provider && !isBlank request.authScope && !isBlank request.model

/-- The checks of `acquire` before the queue that do not read the state. -/
def admitted (inner : Inner) (request : ScheduleRequest) : Bool :=
  named request && request.retryAttempt ≤ inner.policy.maxRetries &&
    request.upstreamRetryAfter.all (fun wait => wait ≤ inner.policy.maxWait request.asyncAlias)

def queueFull (inner : Inner) (request : ScheduleRequest) (s : State) : Bool :=
  inner.policy.maxPending ≤ s.pending.entries.length ||
    inner.policy.maxPendingBytes - s.pendingBytes < requestBytes inner request

/-- The queueing section of `acquire`, on a pruned state. -/
def State.enqueue (inner : Inner) (now sender : Nat) (request : ScheduleRequest) (s : State) : State :=
  if queueFull inner request s then s
  else
    { s with
      nextId := (s.nextId + 1) % 2 ^ 64
      coalesceUntil := if s.pending.entries = [] then some (now + fromMillis inner.policy.queueCoalesceMs)
        else s.coalesceUntil
      pendingBytes := s.pendingBytes + requestBytes inner request
      pending := s.pending.insert s.nextId
        { request, enqueuedAt := now, inputTokens := request.inputTokens
          outputTokens := request.outputTokens, bytes := requestBytes inner request, sender } }

def ScheduleRequest.fit (inner : Inner) (s : State) (now : Nat) (request : ScheduleRequest) : Fit :=
  readiness inner.policy s request request.inputTokens request.outputTokens now

/-- The outcome with which a pass of `acquire` ends its own call at once. -/
def hopeless (inner : Inner) (now started : Nat) (request : ScheduleRequest) (s : State) :
    Option ScheduleOutcome :=
  let fit := request.fit inner s now
  if fit.impossible then
    some (capacityOutcome inner request "request_exceeds_quota" (fit.atTime.map (· - now)) now started s)
  else none

/-- The outcome of a call that reaches its deadline. -/
def expiry (inner : Inner) (now started : Nat) (request : ScheduleRequest) (s : State) : ScheduleOutcome :=
  capacityOutcome inner request "max_wait_exceeded"
    ((request.fit inner s now).atTime.map (· - now)) now started s

/-- A call leaves the queue for good. -/
def State.withdraw (id : Nat) (s : State) : State := (s.removePending id).clearCoalesce

/-- Overwrite the recorded usage of the first event with this id. -/
def rewriteUsage (id : Nat) (inputTokens outputTokens : Option Nat) : List UsageEvent → List UsageEvent
  | [] => []
  | event :: rest =>
    if event.id = id then
      { event with
        inputTokens := inputTokens.getD event.inputTokens
        outputTokens := outputTokens.getD event.outputTokens } :: rest
    else event :: rewriteUsage id inputTokens outputTokens rest

/-- The session update of `complete`. -/
def State.recordSession (now : Nat) (permit : SchedulePermit) (cacheReadHit : Option Bool) (s : State) :
    State :=
  match permit.sessionId with
  | none => s
  | some sessionId =>
    let key := sessionKey permit.provider permit.authScope sessionId
    let previousCache := (s.sessions key).bind (fun session =>
      if session.lastModel = permit.model then session.cacheReadHit else none)
    let session : SessionState :=
      { lastActivity := now, lastInteraction := permit.interaction, lastModel := permit.model
        cacheReadHit := cacheReadHit.or previousCache }
    { s with sessions := fun other => if other = key then some session else s.sessions other }

/-- `complete` up to its dispatch. -/
def State.settle (now : Nat) (permit : SchedulePermit) (inputTokens outputTokens : Option Nat)
    (cacheReadHit : Option Bool) (s : State) : State :=
  let s := match permit.reservationId with
    | none => s
    | some id =>
      { s with
        active := s.active.erase id
        events := rewriteUsage id inputTokens outputTokens s.events }
  s.recordSession now permit cacheReadHit

/-- `abort` up to its dispatch. -/
def State.revoke (inner : Inner) (id : Nat) (s : State) : State :=
  rebuildPacing inner (s.retract id)

/-- A critical section, with what it needs from the task that runs it. -/
inductive Section where
  | enqueue (sender : Nat) (request : ScheduleRequest)
  | pass (id : Nat) (request : ScheduleRequest)
  | expire (id : Nat)
  | complete (permit : SchedulePermit) (inputTokens outputTokens : Option Nat) (cacheReadHit : Option Bool)
  | abort (id : Nat)
  | dropLease (id : Nat)
  | dropPending (id : Nat)
  deriving DecidableEq

/-- What a section changes before it prunes. -/
def Section.edit (inner : Inner) (now : Nat) (s : State) : Section → State
  | .enqueue _ _ | .pass _ _ => s
  | .expire id | .dropPending id => s.withdraw id
  | .complete permit inputTokens outputTokens cacheReadHit =>
    s.settle now permit inputTokens outputTokens cacheReadHit
  | .abort id => s.revoke inner id
  | .dropLease id => { s with active := s.active.erase id }

def Section.prunes : Section → Bool
  | .expire _ | .dropLease _ => false
  | _ => true

/-- The state in which a section queues its request or looks at the queue. -/
def Section.opened (inner : Inner) (now : Nat) (s : State) (work : Section) : State :=
  if work.prunes then pruneEvents inner.policy now (work.edit inner now s)
  else work.edit inner now s

/-- A section that looks at no channel. -/
def Pass.silent (s : State) : Pass := { state := s, due := none, sent := [], returned := [] }

/-- What a section does when it runs with the clock reading `now`. -/
def Section.run (inner : Inner) (closed : Nat → Closings) (now : Nat) (s : State) (work : Section) :
    Pass :=
  let opened := work.opened inner now s
  match work with
  | .enqueue sender request => .silent (opened.enqueue inner now sender request)
  | .pass id request =>
    if (request.fit inner opened now).impossible then .silent (opened.withdraw id)
    else dispatchReady inner (closed 0) now opened
  | .expire _ => .silent opened
  | .dropLease id =>
    if (s.active.lookup id).isSome then dispatchAvailable inner closed now opened else .silent opened
  | .complete _ _ _ _ | .abort _ | .dropPending _ => dispatchAvailable inner closed now opened

end Kaiion.Scheduling
