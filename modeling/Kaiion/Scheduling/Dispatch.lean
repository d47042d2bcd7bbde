import Kaiion.Scheduling.Quota

/-! One dispatch pass over the queue, and the loop that repeats it. A receiver that is being
dropped may close between any two looks at it, so a pass is given what each look finds. -/
namespace Kaiion.Scheduling

/-- The four places at which a pass looks at a receiver. -/
inductive Check where
  | scan
  | reject
  | reserve
  | send
  deriving DecidableEq, Repr

/-- Which channels each look finds closed. -/
abbrev Closings := Check → Nat → Bool

/-- What a pass does: the new state, the due instant it returns, the outcomes it sends into
channels, and the reservations whose permit came back from a closed channel and is dropped. -/
structure Pass where
  state : State
  due : Option Nat
  sent : List (Nat × ScheduleOutcome)
  returned : List Nat

/-- Push one paced instant back by a duration. -/
def pace (pacing : PacingKey → Option Nat) (key : PacingKey) (now duration : Nat) :
    PacingKey → Option Nat :=
  fun other => if other = key then some (max ((pacing key).getD now) now + duration) else pacing other

def paceLimit (inner : Inner) (index : Nat) (limit : QuotaLimit) (request : ScheduleRequest)
    (inputTokens outputTokens now : Nat) (pacing : PacingKey → Option Nat) : PacingKey → Option Nat :=
  let key := pacingKey index limit request.provider request.authScope
  let pacing := match limit.maxRps with
    | some rps => pace pacing (key .requests) now (inner.durationForRate rps)
    | none => pacing
  (tokenMetrics limit inputTokens outputTokens).foldl (fun pacing (metric, cap, tokens) =>
    match cap with
    | some cap => if 0 < tokens then
        pace pacing (key metric) now (inner.durationForTokens tokens limit.windowSeconds cap) else pacing
    | none => pacing) pacing

/-- `update_pacing`. -/
def updatePacing (inner : Inner) (request : ScheduleRequest) (inputTokens outputTokens now : Nat)
    (s : State) : State :=
  { s with pacing := inner.policy.limits.zipIdx.foldl (fun pacing (limit, index) =>
      if ruleMatches limit request then
        paceLimit inner index limit request inputTokens outputTokens now pacing else pacing) s.pacing }

/-- The request `rebuild_pacing` replays a usage event with. -/
def UsageEvent.request (event : UsageEvent) : ScheduleRequest :=
  { provider := event.provider, authScope := event.authScope, model := event.model, sessionId := none
    inputTokens := event.inputTokens, outputTokens := event.outputTokens, interaction := .unknown
    asyncAlias := false, cacheReadHit := none, retryAttempt := 0, upstreamRetryAfter := none
    allowBatchFallback := false, body := none }

/-- `rebuild_pacing`. -/
def rebuildPacing (inner : Inner) (s : State) : State :=
  s.events.foldl (fun s event =>
    updatePacing inner event.request event.inputTokens event.outputTokens event.atTime s)
    { s with pacing := fun _ => none }

def Pending.fit (inner : Inner) (s : State) (now : Nat) (pending : Pending) : Fit :=
  readiness inner.policy s pending.request pending.inputTokens pending.outputTokens now

def Pending.score (inner : Inner) (s : State) (now : Nat) (pending : Pending) : Int :=
  priorityScore inner pending.request (s.sessionOf pending.request) pending.enqueuedAt now

/-- What the first loop of `dispatch_ready` collects. -/
structure Scan where
  best : Option (Nat × Int × Nat)
  nextDue : Option Nat
  impossible : List Nat

/-- The order in which ready requests are preferred: score, then age, then id. -/
def beats (id : Nat) (score : Int) (enqueuedAt : Nat) : Option (Nat × Int × Nat) → Bool
  | none => true
  | some (bestId, bestScore, bestTime) => bestScore < score ||
      (score = bestScore && enqueuedAt < bestTime) ||
      (score = bestScore && enqueuedAt = bestTime && id < bestId)

def earlier (due : Option Nat) (instant : Nat) : Option Nat :=
  some (match due with
    | none => instant
    | some current => min current instant)

def scanOne (inner : Inner) (s : State) (closed : Closings) (now : Nat) (queueReady : Bool) (scan : Scan)
    (id : Nat) (pending : Pending) : Scan :=
  if closed .scan pending.sender then { scan with impossible := scan.impossible ++ [id] }
  else
    let fit := pending.fit inner s now
    if fit.impossible then { scan with impossible := scan.impossible ++ [id] }
    else
      match fit.atTime with
      | none => scan
      | some instant =>
        if now < instant then { scan with nextDue := earlier scan.nextDue instant }
        else if !queueReady then scan
        else
          let score := pending.score inner s now
          if beats id score pending.enqueuedAt scan.best then
            { scan with best := some (id, score, pending.enqueuedAt) }
          else scan

def scanPending (inner : Inner) (s : State) (closed : Closings) (now : Nat) (queueReady : Bool) :
    List (Sigma fun _ : Nat => Pending) → Scan → Scan
  | [], scan => scan
  | ⟨id, pending⟩ :: rest, scan =>
    scanPending inner s closed now queueReady rest (scanOne inner s closed now queueReady scan id pending)

def queueReady (s : State) (now : Nat) : Bool := s.coalesceUntil.all (fun instant => instant ≤ now)

/-- The first loop. -/
def State.scan (inner : Inner) (closed : Closings) (now : Nat) (s : State) : Scan :=
  scanPending inner s closed now (queueReady s now) s.pending.entries
    { best := none, nextDue := s.coalesceUntil.filter (fun instant => now < instant), impossible := [] }

/-- The outcome of a queued request that can never fit. -/
def rejection (inner : Inner) (s : State) (now : Nat) (pending : Pending) : ScheduleOutcome :=
  match batchRecommendation inner pending.request s pending.enqueuedAt now with
  | some reason => .recommendBatch reason none
  | none => .retryExhausted "request_exceeds_quota" none

/-- The second loop: entries that are closed or can never fit leave the queue. -/
def rejectPending (inner : Inner) (closed : Closings) (now : Nat) :
    List Nat → State → State × List (Nat × ScheduleOutcome)
  | [], s => (s, [])
  | id :: rest, s =>
    match s.pending.lookup id with
    | none => rejectPending inner closed now rest s
    | some pending =>
      let s' := s.removePending id
      let (final, sent) := rejectPending inner closed now rest s'
      if closed .reject pending.sender then (final, sent)
      else (final, (pending.sender, rejection inner s' now pending) :: sent)

def Pending.event (id now : Nat) (pending : Pending) : UsageEvent :=
  { id, atTime := now, provider := pending.request.provider, authScope := pending.request.authScope
    model := pending.request.model, inputTokens := pending.inputTokens, outputTokens := pending.outputTokens }

def Pending.activeRequest (pending : Pending) : ActiveRequest :=
  { provider := pending.request.provider, authScope := pending.request.authScope
    model := pending.request.model }

def Pending.permit (id now : Nat) (pending : Pending) : SchedulePermit :=
  { reservationId := some id, provider := pending.request.provider, authScope := pending.request.authScope
    model := pending.request.model, sessionId := pending.request.sessionId
    interaction := pending.request.interaction, inputTokens := pending.inputTokens
    outputTokens := pending.outputTokens, waited := now - pending.enqueuedAt }

/-- The reservation of a request that has just left the queue. -/
def State.reserve (s : State) (id now : Nat) (pending : Pending) : State :=
  { s with
    events := s.events ++ [pending.event id now]
    active := s.active.insert id pending.activeRequest }

/-- `release` of a reservation whose permit could not be delivered. -/
def State.retract (s : State) (id : Nat) : State :=
  { s with events := s.events.filter (fun event => event.id ≠ id), active := s.active.erase id }

/-- The chosen request leaves the queue and, unless its receiver is closed, is reserved and sent. -/
def dispatchBest (inner : Inner) (closed : Closings) (now id : Nat) (pending : Pending)
    (sent : List (Nat × ScheduleOutcome)) (s : State) : Pass :=
  let s := s.removePending id
  if closed .reserve pending.sender then
    if s.pending.entries = [] then
      { state := { s with coalesceUntil := none }, due := none, sent, returned := [] }
    else { state := s, due := some now, sent, returned := [] }
  else
    let reserved := s.reserve id now pending
    if closed .send pending.sender then { state := reserved.retract id, due := some now, sent, returned := [id] }
    else
      { state := updatePacing inner pending.request pending.inputTokens pending.outputTokens now reserved
        due := some now, sent := sent ++ [(pending.sender, .dispatch (pending.permit id now))], returned := [] }

/-- `dispatch_ready`. -/
def dispatchReady (inner : Inner) (closed : Closings) (now : Nat) (s : State) : Pass :=
  let ready := queueReady s now
  let scan := s.scan inner closed now
  let (s, sent) := rejectPending inner closed now scan.impossible s
  match scan.best with
  | some (id, _, _) =>
    match s.pending.lookup id with
    | some pending => dispatchBest inner closed now id pending sent s
    | none => { state := s, due := some now, sent, returned := [] }
  | none =>
    if s.pending.entries = [] then
      { state := { s with coalesceUntil := none }, due := none, sent, returned := [] }
    else
      { state := if ready then { s with coalesceUntil := none } else s, due := scan.nextDue, sent
        returned := [] }

/-- The loop of `dispatch_available`; every repetition follows a pass that shortened the queue. -/
def dispatchLoop (inner : Inner) (closed : Nat → Closings) (now : Nat) : Nat → State → Pass
  | 0, s => { state := s, due := none, sent := [], returned := [] }
  | fuel + 1, s =>
    let pass := dispatchReady inner (closed fuel) now s
    if pass.due.any (fun due => due ≤ now) then
      let rest := dispatchLoop inner closed now fuel pass.state
      { rest with sent := pass.sent ++ rest.sent, returned := pass.returned ++ rest.returned }
    else pass

/-- `dispatch_available`. -/
def dispatchAvailable (inner : Inner) (closed : Nat → Closings) (now : Nat) (s : State) : Pass :=
  dispatchLoop inner closed now (s.pending.entries.length + 1) s

end Kaiion.Scheduling
