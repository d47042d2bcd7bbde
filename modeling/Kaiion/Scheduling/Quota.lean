import Kaiion.Scheduling.State
import Mathlib.Data.List.Sort

/-! When a request may be sent: the rolling quotas, the pacing and the concurrency caps. -/
namespace Kaiion.Scheduling

/-- `at` and `impossible` of a fit. -/
structure Fit where
  atTime : Option Nat
  impossible : Bool
  deriving DecidableEq, Repr

def satAdd (a b : Nat) : Nat := min (a + b) maxU64

def satMul (a b : Nat) : Nat := min (a * b) maxU64

/-- A sum of `u64`s, as a release build computes it. -/
def sumU64 (values : List Nat) : Nat := values.sum % 2 ^ 64

def ruleMatches (limit : QuotaLimit) (request : ScheduleRequest) : Bool :=
  limit.provider.all (fun provider => provider = request.provider) &&
    limit.model.all (fun model => model = request.model)

def eventMatches (limit : QuotaLimit) (request : ScheduleRequest) (event : UsageEvent) (now : Nat) : Bool :=
  now - event.atTime < fromSecs limit.windowSeconds && event.provider = request.provider &&
    (!limit.authScoped || event.authScope = request.authScope) &&
    limit.model.all (fun model => model = event.model)

def activeMatches (limit : QuotaLimit) (request : ScheduleRequest) (active : ActiveRequest) : Bool :=
  active.provider = request.provider && (!limit.authScoped || active.authScope = request.authScope) &&
    limit.model.all (fun model => model = active.model)

/-- The request cap of a limit: `max_requests` and `max_rps` over the window. -/
def requestCap (limit : QuotaLimit) : Option Nat :=
  match limit.maxRps with
  | none => limit.maxRequests
  | some rps =>
    let rpsCap := satMul rps limit.windowSeconds
    some (match limit.maxRequests with
      | none => rpsCap
      | some cap => min cap rpsCap)

/-- `cap_fit`. -/
def capFit (limit : QuotaLimit) (inputTokens outputTokens reqs input output : Nat) : Bool :=
  (requestCap limit).all (fun cap => satAdd reqs 1 ≤ cap) &&
    limit.maxInputTokens.all (fun cap => satAdd input inputTokens ≤ cap) &&
    limit.maxOutputTokens.all (fun cap => satAdd output outputTokens ≤ cap) &&
    limit.maxTotalTokens.all (fun cap =>
      satAdd (satAdd input output) (satAdd inputTokens outputTokens) ≤ cap)

/-- The loop of `rolling_fit`: reservations leave the window one by one, oldest first. -/
def releaseFit (fits : Nat → Nat → Nat → Bool) : List (Nat × Nat × Nat) → Nat → Nat → Nat → Fit
  | [], _, _, _ => { atTime := none, impossible := true }
  | (expiresAt, eventInput, eventOutput) :: rest, reqs, input, output =>
    if fits (reqs - 1) (input - eventInput) (output - eventOutput) then
      { atTime := some expiresAt, impossible := false }
    else releaseFit fits rest (reqs - 1) (input - eventInput) (output - eventOutput)

/-- The reservations of a window with the instants at which they leave it, oldest first. -/
def releaseOrder (limit : QuotaLimit) (events : List UsageEvent) : List (Nat × Nat × Nat) :=
  (events.map (fun event => (event.atTime + fromSecs limit.windowSeconds, event.inputTokens,
    event.outputTokens))).insertionSort (fun a b => a.1 ≤ b.1)

/-- `rolling_fit`. -/
def rollingFit (limit : QuotaLimit) (events : List UsageEvent) (inputTokens outputTokens now : Nat) : Fit :=
  if (requestCap limit).isNone && limit.maxInputTokens.isNone && limit.maxOutputTokens.isNone &&
      limit.maxTotalTokens.isNone then { atTime := some now, impossible := false }
  else
    let active := releaseOrder limit events
    let fits := capFit limit inputTokens outputTokens
    let reqs := active.length
    let input := sumU64 (active.map (fun event => event.2.1))
    let output := sumU64 (active.map (fun event => event.2.2))
    if fits reqs input output then { atTime := some now, impossible := false }
    else releaseFit fits active reqs input output

def pacingKey (index : Nat) (limit : QuotaLimit) (provider authScope : String) (metric : PaceMetric) :
    PacingKey :=
  { ruleIndex := index, provider, authScope := if limit.authScoped then authScope else ""
    model := limit.model.getD "", metric }

/-- The paced token metrics of a limit, with their caps and the tokens a request adds. -/
def tokenMetrics (limit : QuotaLimit) (inputTokens outputTokens : Nat) :
    List (PaceMetric × Option Nat × Nat) :=
  [(.inputTokens, limit.maxInputTokens, inputTokens), (.outputTokens, limit.maxOutputTokens, outputTokens),
    (.totalTokens, limit.maxTotalTokens, satAdd inputTokens outputTokens)]

/-- The metrics by which a limit paces a request. -/
def pacedMetrics (limit : QuotaLimit) (inputTokens outputTokens : Nat) : List PaceMetric :=
  (if limit.maxRps.isSome then [.requests] else []) ++
    ((tokenMetrics limit inputTokens outputTokens).filter (fun (_, cap, tokens) =>
      cap.isSome && 0 < tokens)).map Prod.fst

/-- The instants at which the pacing of one limit lets a request through. -/
def pacedInstants (s : State) (index : Nat) (limit : QuotaLimit) (request : ScheduleRequest)
    (inputTokens outputTokens : Nat) : List Nat :=
  (pacedMetrics limit inputTokens outputTokens).filterMap (fun metric =>
    s.pacing (pacingKey index limit request.provider request.authScope metric))

/-- The first loop of `readiness`; an early return is an error. -/
def quotaReadiness (s : State) (request : ScheduleRequest) (inputTokens outputTokens now : Nat) :
    List (QuotaLimit × Nat) → Nat → Except Fit Nat
  | [], ready => .ok ready
  | (limit, index) :: rest, ready =>
    if !ruleMatches limit request then quotaReadiness s request inputTokens outputTokens now rest ready
    else if limit.maxInputTokens.any (fun cap => cap < inputTokens) ||
        limit.maxOutputTokens.any (fun cap => cap < outputTokens) ||
        limit.maxTotalTokens.any (fun cap => cap < satAdd inputTokens outputTokens) then
      .error { atTime := none, impossible := true }
    else
      let rolling := rollingFit limit (s.events.filter (fun event => eventMatches limit request event now))
        inputTokens outputTokens now
      if rolling.impossible then .error rolling
      else
        let ready := (rolling.atTime.toList ++
          pacedInstants s index limit request inputTokens outputTokens).foldl max ready
        quotaReadiness s request inputTokens outputTokens now rest ready

/-- A concurrency cap that selects the request is used up. -/
def concurrencyBlocked (policy : SchedulingPolicy) (s : State) (request : ScheduleRequest) : Bool :=
  policy.limits.any (fun limit => limit.maxConcurrency.any (fun cap => ruleMatches limit request &&
    cap ≤ s.active.entries.countP (fun entry => activeMatches limit request entry.2)))

/-- `readiness`. -/
def readiness (policy : SchedulingPolicy) (s : State) (request : ScheduleRequest)
    (inputTokens outputTokens now : Nat) : Fit :=
  if !policy.enabled then { atTime := some now, impossible := false }
  else
    match quotaReadiness s request inputTokens outputTokens now policy.limits.zipIdx now with
    | .error fit => fit
    | .ok ready =>
      if concurrencyBlocked policy s request then
        { atTime := if now < ready then some ready else none, impossible := false }
      else { atTime := some ready, impossible := false }

end Kaiion.Scheduling
