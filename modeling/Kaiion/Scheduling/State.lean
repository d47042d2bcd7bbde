import Kaiion.Json.Value
import Kaiion.Scheduling.Policy
import Mathlib.Data.List.AList

/-! Requests, permits and the state behind the scheduler's lock, with the priority of a request
and the recommendation to use Batch instead. -/
namespace Kaiion.Scheduling

inductive InteractionKind where
  | userPrompt
  | toolOutput
  | unknown
  deriving DecidableEq, Repr

inductive Complexity where
  | low
  | medium
  | high
  deriving DecidableEq, Repr

structure ScheduleRequest where
  provider : String
  authScope : String
  model : String
  sessionId : Option String
  inputTokens : Nat
  outputTokens : Nat
  interaction : InteractionKind
  asyncAlias : Bool
  cacheReadHit : Option Bool
  retryAttempt : Nat
  upstreamRetryAfter : Option Nat
  allowBatchFallback : Bool
  body : Option Value
  deriving DecidableEq

/-- A permit to send one request; it has no reservation when scheduling is disabled. Whether its
lease is armed is a matter of who holds it. -/
structure SchedulePermit where
  reservationId : Option Nat
  provider : String
  authScope : String
  model : String
  sessionId : Option String
  interaction : InteractionKind
  inputTokens : Nat
  outputTokens : Nat
  waited : Nat
  deriving DecidableEq

inductive ScheduleOutcome where
  | dispatch (permit : SchedulePermit)
  | recommendBatch (reason : String) (retryAfter : Option Nat)
  | retryExhausted (reason : String) (retryAfter : Option Nat)
  deriving DecidableEq

structure UsageEvent where
  id : Nat
  atTime : Nat
  provider : String
  authScope : String
  model : String
  inputTokens : Nat
  outputTokens : Nat
  deriving DecidableEq

structure ActiveRequest where
  provider : String
  authScope : String
  model : String
  deriving DecidableEq

/-- A queued request; `sender` names the channel of the acquire call that waits for it. -/
structure Pending where
  request : ScheduleRequest
  enqueuedAt : Nat
  inputTokens : Nat
  outputTokens : Nat
  bytes : Nat
  sender : Nat
  deriving DecidableEq

inductive PaceMetric where
  | requests
  | inputTokens
  | outputTokens
  | totalTokens
  deriving DecidableEq, Repr

structure PacingKey where
  ruleIndex : Nat
  provider : String
  authScope : String
  model : String
  metric : PaceMetric
  deriving DecidableEq

structure SessionState where
  lastActivity : Nat
  lastInteraction : InteractionKind
  lastModel : String
  cacheReadHit : Option Bool
  deriving DecidableEq

structure State where
  events : List UsageEvent
  pending : AList (fun _ : Nat => Pending)
  active : AList (fun _ : Nat => ActiveRequest)
  pendingBytes : Nat
  pacing : PacingKey → Option Nat
  sessions : String → Option SessionState
  nextId : Nat
  coalesceUntil : Option Nat

/-- `State::default`. -/
def State.initial : State :=
  { events := [], pending := ∅, active := ∅, pendingBytes := 0, pacing := fun _ => none
    sessions := fun _ => none, nextId := 0, coalesceUntil := none }

/-- What a scheduler is built from. The two durations are computed in floating point by the
source (`duration_for_rate` for one unit and `duration_from_seconds` for paced tokens). -/
structure Inner where
  policy : SchedulingPolicy
  classify : ScheduleRequest → Complexity
  durationForRate : Nat → Nat
  durationForTokens : Nat → Nat → Nat → Nat
  print : Value → String

/-- `HeuristicComplexityClassifier::classify`. -/
def heuristicClassify (settings : ComplexitySettings) (request : ScheduleRequest) : Complexity :=
  let tools := (((request.body.bind (fun body => body.get "tools")).bind Value.asArray).map
    List.length).getD 0
  let highReasoning := ((request.body.bind (fun body => body.pointer ["reasoning", "effort"])).bind
    Value.asStr).any (fun effort => effort = "high" || effort = "xhigh" || effort = "max")
  if highReasoning || settings.highInputTokens ≤ request.inputTokens || settings.highToolCount ≤ tools then
    .high
  else if request.inputTokens ≤ settings.lowInputTokens && tools ≤ 1 then .low
  else .medium

def asyncModelPrefix : String := "async-"

def isAsync (request : ScheduleRequest) : Bool :=
  request.asyncAlias || asyncModelPrefix.toList.isPrefixOf request.model.toList

def sessionKey (provider authScope sessionId : String) : String :=
  provider ++ "\x00" ++ authScope ++ "\x00" ++ sessionId

def State.sessionOf (s : State) (request : ScheduleRequest) : Option SessionState :=
  request.sessionId.bind (fun session => s.sessions (sessionKey request.provider request.authScope session))

/-- The session's last response for this model reported `hit`, recently enough to matter. -/
def cacheObserved (policy : SchedulingPolicy) (request : ScheduleRequest) (session : Option SessionState)
    (now : Nat) (hit : Bool) : Bool :=
  session.any (fun session => session.cacheReadHit = some hit && session.lastModel = request.model &&
    now - session.lastActivity ≤ fromMillis policy.cacheAffinityWindowMs)

def intervalPoints (intervals : Nat) (perInterval : Int) : Int :=
  ((min (intervals * perInterval.toNat) 1000000 : Nat) : Int)

/-- `priority_score`. -/
def priorityScore (inner : Inner) (request : ScheduleRequest) (session : Option SessionState)
    (enqueuedAt now : Nat) : Int :=
  let policy := inner.policy
  let base := match inner.classify request with
    | .low => policy.complexity.lowPriority
    | .medium => policy.complexity.mediumPriority
    | .high => policy.complexity.highPriority
  let affinity := if request.cacheReadHit = some true ||
      (request.cacheReadHit.isNone && cacheObserved policy request session now true) then
    policy.cacheAffinityBoost else 0
  let prompt := if request.interaction = .userPrompt && session.any (fun session =>
      now - session.lastActivity ≤ fromMillis policy.recentPromptWindowMs) then
    policy.recentPromptBoost + (if session.any (fun session => session.lastInteraction = .toolOutput) then
      policy.recentPromptBoost.tdiv 2 else 0) else 0
  let tool := if request.interaction = .toolOutput then policy.toolOutputPenalty else 0
  let asyncPenalty := if isAsync request then policy.asyncAliasPenalty else 0
  let idle := match session with
    | some session =>
      let age := now - session.lastActivity
      if fromMillis policy.idleDecayMs < age && 0 < policy.idleDecayMs then
        intervalPoints (age / 1000000 / policy.idleDecayMs - 1) policy.idleDecayPenaltyPerInterval
      else 0
    | none => 0
  let aging := intervalPoints ((now - enqueuedAt) / 1000000 / max policy.agingIntervalMs 1)
    policy.queueAgingBoostPerInterval
  base + affinity + prompt - tool - asyncPenalty - idle + aging

/-- `batch_recommendation`. -/
def batchRecommendation (inner : Inner) (request : ScheduleRequest) (s : State) (enqueuedAt now : Nat) :
    Option String :=
  if !request.allowBatchFallback || !inner.policy.batchOnCacheMiss then none
  else
    let session := s.sessionOf request
    if inner.policy.highPriorityThreshold ≤ priorityScore inner request session enqueuedAt now then none
    else if request.cacheReadHit = some false || cacheObserved inner.policy request session now false then
      some "cache_miss_low_priority"
    else if isAsync request then some "async_alias_low_priority"
    else none

/-- `Scheduler::capacity_outcome`. -/
def capacityOutcome (inner : Inner) (request : ScheduleRequest) (reason : String) (retryAfter : Option Nat)
    (now enqueuedAt : Nat) (s : State) : ScheduleOutcome :=
  match batchRecommendation inner request s enqueuedAt now with
  | some batchReason => .recommendBatch batchReason retryAfter
  | none => .retryExhausted reason retryAfter

def State.removePending (s : State) (id : Nat) : State :=
  match s.pending.lookup id with
  | none => s
  | some pending =>
    { s with pending := s.pending.erase id, pendingBytes := s.pendingBytes - pending.bytes }

/-- The coalescing instant belongs to a non-empty queue. -/
def State.clearCoalesce (s : State) : State :=
  if s.pending.entries = [] then { s with coalesceUntil := none } else s

def maxWindow (policy : SchedulingPolicy) : Nat :=
  (policy.limits.map (fun limit => fromSecs limit.windowSeconds)).foldl max 0

/-- `prune_events`. -/
def pruneEvents (policy : SchedulingPolicy) (now : Nat) (s : State) : State :=
  { s with
    events := s.events.dropWhile (fun event => maxWindow policy ≤ now - event.atTime)
    pacing := fun key => (s.pacing key).filter (fun paced => now < paced || now - paced < maxWindow policy)
    sessions := fun key => (s.sessions key).filter (fun session =>
      now - session.lastActivity ≤ fromMillis (min (policy.idleDecayMs * 8) maxU64)) }

end Kaiion.Scheduling
