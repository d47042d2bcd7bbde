import Kaiion.Foundation.Checked
import Kaiion.Scheduling.EarliestFit
import Kaiion.Scheduling.Ownership

/-! The scheduler's arithmetic with checked integers, as a build with overflow checks runs it. -/
namespace Kaiion.Scheduling
open Foundation

/-- A clock reading and the ages it leads to hold less than 2^64 seconds. -/
def maxReading : Nat := fromSecs (2 ^ 64)

/-- `priority_score`. -/
def checkedPriorityScore (inner : Inner) (request : ScheduleRequest) (session : Option SessionState)
    (enqueuedAt now : Nat) : Option Int := do
  let policy := inner.policy
  let score := match inner.classify request with
    | .low => policy.complexity.lowPriority
    | .medium => policy.complexity.mediumPriority
    | .high => policy.complexity.highPriority
  let score ← (if request.cacheReadHit = some true ||
      (request.cacheReadHit.isNone && cacheObserved policy request session now true) then
    IntType.i64.add score policy.cacheAffinityBoost else some score)
  let score ← (if request.interaction = .userPrompt && session.any (fun session =>
      now - session.lastActivity ≤ fromMillis policy.recentPromptWindowMs) then do
    let score ← IntType.i64.add score policy.recentPromptBoost
    (if session.any (fun session => session.lastInteraction = .toolOutput) then do
      let half ← IntType.i32.div policy.recentPromptBoost 2
      IntType.i64.add score half
    else some score) else some score)
  let score ← (if request.interaction = .toolOutput then IntType.i64.sub score policy.toolOutputPenalty
    else some score)
  let score ← (if isAsync request then IntType.i64.sub score policy.asyncAliasPenalty else some score)
  let score ← (match session with
    | some session =>
      let age := now - session.lastActivity
      if fromMillis policy.idleDecayMs < age && 0 < policy.idleDecayMs then do
        let quotient ← IntType.u128.div ((age / 1000000 : Nat) : Int) policy.idleDecayMs
        let idleIntervals ← IntType.u128.sub quotient 1
        IntType.i64.sub score (intervalPoints idleIntervals.toNat policy.idleDecayPenaltyPerInterval)
      else some score
    | none => some score)
  let waitIntervals ← IntType.u128.div (((now - enqueuedAt) / 1000000 : Nat) : Int) (max policy.agingIntervalMs 1 : Nat)
  IntType.i64.add score (intervalPoints waitIntervals.toNat policy.queueAgingBoostPerInterval)

/-- At most `n` million points, either way. -/
private def Points (n : Nat) (points : Int) : Prop := -(1000000 * n : Nat) ≤ points ∧ points ≤ (1000000 * n : Nat)

private theorem intervalPoints_points (intervals : Nat) (perInterval : Int) :
    Points 1 (intervalPoints intervals perInterval) := by
  unfold Points intervalPoints
  omega

private theorem Points.add {m n : Nat} {a b : Int} (ha : Points m a) (hb : Points n b) : Points (m + n) (a + b) := by
  unfold Points at ha hb ⊢
  omega

private theorem Points.sub {m n : Nat} {a b : Int} (ha : Points m a) (hb : Points n b) : Points (m + n) (a - b) := by
  unfold Points at ha hb ⊢
  omega

/-- An `i64` holds a thousand million points. -/
private theorem Points.holds {n : Nat} {points : Int} (h : Points n points) (hn : n ≤ 1000) :
    IntType.i64.Holds points := by
  unfold Points at h
  unfold IntType.Holds IntType.i64
  dsimp only
  omega

private theorem Points.add_i64 {m n : Nat} {a b : Int} (ha : Points m a) (hb : Points n b) (hn : m + n ≤ 1000) :
    IntType.i64.add a b = some (a + b) :=
  IntType.add_of_holds ((ha.add hb).holds hn)

private theorem Points.sub_i64 {m n : Nat} {a b : Int} (ha : Points m a) (hb : Points n b) (hn : m + n ≤ 1000) :
    IntType.i64.sub a b = some (a - b) :=
  IntType.sub_of_holds ((ha.sub hb).holds hn)

/-- A step that is not taken adds nothing. -/
private theorem Points.guard {n : Nat} {points : Int} (h : Points n points) (condition : Prop) [Decidable condition] :
    Points n (if condition then points else 0) := by
  split
  · exact h
  · unfold Points
    omega

private theorem add_guarded {step : Option Int} {score points : Int} {condition : Prop} [Decidable condition]
    (h : step = some (score + points)) :
    (if condition then step else some score) = some (score + if condition then points else 0) := by
  split
  · exact h
  · rw [Int.add_zero]

private theorem sub_guarded {step : Option Int} {score points : Int} {condition : Prop} [Decidable condition]
    (h : step = some (score - points)) :
    (if condition then step else some score) = some (score - if condition then points else 0) := by
  split
  · exact h
  · rw [Int.sub_zero]

private theorem some_bind (points : Int) (rest : Int → Option Int) : (some points >>= rest) = rest points := rfl

/-- Half a boost is at most as large as the boost. -/
private theorem half_boost {boost : Int} (h : Points 1 boost) :
    IntType.i32.div boost 2 = some (boost.tdiv 2) ∧ Points 1 (boost.tdiv 2) := by
  have hpoints : Points 1 (boost.tdiv 2) := by
    have hle := Int.natAbs_tdiv_le_natAbs boost 2
    unfold Points at h ⊢
    omega
  refine ⟨IntType.div_of_holds (by omega) ?_, hpoints⟩
  unfold Points at hpoints
  unfold IntType.Holds IntType.i32
  dsimp only
  omega

/-- Milliseconds of a reading divided by an interval. -/
private theorem div_u128 {nanos interval : Nat} (hnanos : nanos < maxReading) (hinterval : 0 < interval) :
    IntType.u128.div ((nanos / 1000000 : Nat) : Int) interval = some ((nanos / 1000000 / interval : Nat) : Int) := by
  have hle : nanos / 1000000 / interval ≤ nanos := Nat.le_trans (Nat.div_le_self _ _) (Nat.div_le_self _ _)
  unfold maxReading fromSecs at hnanos
  refine IntType.div_of_holds (by omega) (show IntType.u128.Holds ((nanos / 1000000 / interval : Nat) : Int) from ?_)
  generalize nanos / 1000000 / interval = quotient at hle
  unfold IntType.Holds IntType.u128
  dsimp only
  omega

/-- An age beyond the idle limit is at least one interval long. -/
private theorem idle_intervals {age interval : Nat} (hage : age < maxReading) (hidle : fromMillis interval < age)
    (hinterval : 0 < interval) : IntType.u128.sub ((age / 1000000 / interval : Nat) : Int) 1 =
      some ((age / 1000000 / interval - 1 : Nat) : Int) := by
  have hmillis : interval ≤ age / 1000000 := by
    unfold fromMillis at hidle
    omega
  have hpos : 1 ≤ age / 1000000 / interval := (Nat.one_le_div_iff hinterval).mpr hmillis
  have hle : age / 1000000 / interval ≤ age := Nat.le_trans (Nat.div_le_self _ _) (Nat.div_le_self _ _)
  unfold maxReading fromSecs at hage
  generalize age / 1000000 / interval = quotient at hpos hle ⊢
  have hsub : (quotient : Int) - 1 = ((quotient - 1 : Nat) : Int) := by omega
  rw [← hsub]
  apply IntType.sub_of_holds
  unfold IntType.Holds IntType.u128
  dsimp only
  omega

/-- What `priority_score` takes off for an idle session. -/
private def idlePenalty (policy : SchedulingPolicy) (session : Option SessionState) (now : Nat) : Int :=
  match session with
  | some session =>
    let age := now - session.lastActivity
    if fromMillis policy.idleDecayMs < age && 0 < policy.idleDecayMs then
      intervalPoints (age / 1000000 / policy.idleDecayMs - 1) policy.idleDecayPenaltyPerInterval
    else 0
  | none => 0

private theorem idlePenalty_points (policy : SchedulingPolicy) (session : Option SessionState) (now : Nat) :
    Points 1 (idlePenalty policy session now) := by
  cases session with
  | none =>
    unfold Points idlePenalty
    dsimp only
    omega
  | some session => exact (intervalPoints_points _ _).guard _

/-- The idle penalty: both divisions by its interval are guarded. -/
private theorem idle_step {policy : SchedulingPolicy} {score : Int} {n : Nat} (hscore : Points n score)
    (hn : n + 1 ≤ 1000) (session : Option SessionState) {now : Nat} (hnow : now < maxReading) :
    (match session with
    | some session =>
      let age := now - session.lastActivity
      if fromMillis policy.idleDecayMs < age && 0 < policy.idleDecayMs then do
        let quotient ← IntType.u128.div ((age / 1000000 : Nat) : Int) policy.idleDecayMs
        let idleIntervals ← IntType.u128.sub quotient 1
        IntType.i64.sub score (intervalPoints idleIntervals.toNat policy.idleDecayPenaltyPerInterval)
      else some score
    | none => some score) = some (score - idlePenalty policy session now) := by
  unfold idlePenalty
  cases session with
  | none => simp
  | some session =>
    have hage : now - session.lastActivity < maxReading := Nat.lt_of_le_of_lt (Nat.sub_le _ _) hnow
    dsimp only
    generalize now - session.lastActivity = age at hage
    by_cases hidle : fromMillis policy.idleDecayMs < age ∧ 0 < policy.idleDecayMs
    · have hcond : (fromMillis policy.idleDecayMs < age && 0 < policy.idleDecayMs) = true := by
        simpa using hidle
      rw [if_pos hcond, if_pos hcond, div_u128 hage hidle.2, some_bind,
        idle_intervals hage hidle.1 hidle.2, some_bind, Int.toNat_natCast]
      exact hscore.sub_i64 (intervalPoints_points _ _) hn
    · have hcond : ¬ (fromMillis policy.idleDecayMs < age && 0 < policy.idleDecayMs) = true := by
        simpa using hidle
      rw [if_neg hcond, if_neg hcond, Int.sub_zero]

/-- The boost of a recent prompt, with half of it again after a tool's output. -/
private theorem prompt_step {boost score : Int} {n : Nat} (hscore : Points n score) (hn : n + 2 ≤ 1000)
    (hboost : Points 1 boost) (recent tool : Bool) :
    (if recent then do
      let score ← IntType.i64.add score boost
      (if tool then do
        let half ← IntType.i32.div boost 2
        IntType.i64.add score half
      else some score) else some score) =
      some (score + if recent then boost + (if tool then boost.tdiv 2 else 0) else 0) := by
  obtain ⟨hhalf, hpoints⟩ := half_boost hboost
  refine add_guarded ?_
  rw [hscore.add_i64 hboost (by omega), some_bind, hhalf, some_bind,
    add_guarded ((hscore.add hboost).add_i64 hpoints (by omega)), Int.add_assoc]

/-- The priority of a request is computed exactly under every validated policy. -/
theorem checkedPriorityScore_eq {inner : Inner} (hvalid : inner.policy.validate = .ok ())
    (request : ScheduleRequest) (session : Option SessionState) (enqueuedAt : Nat) {now : Nat}
    (hnow : now < maxReading) : checkedPriorityScore inner request session enqueuedAt now =
      some (priorityScore inner request session enqueuedAt now) := by
  have hbounds : ∀ value ∈ [inner.policy.cacheAffinityBoost, inner.policy.recentPromptBoost,
      inner.policy.toolOutputPenalty, inner.policy.asyncAliasPenalty, inner.policy.complexity.lowPriority,
      inner.policy.complexity.mediumPriority, inner.policy.complexity.highPriority], Points 1 value :=
    SchedulingPolicy.validate_priorities hvalid
  have hboost := hbounds inner.policy.cacheAffinityBoost (by simp)
  have hprompt := hbounds inner.policy.recentPromptBoost (by simp)
  have htool := hbounds inner.policy.toolOutputPenalty (by simp)
  have hasync := hbounds inner.policy.asyncAliasPenalty (by simp)
  have hbase : Points 1 (match inner.classify request with
      | .low => inner.policy.complexity.lowPriority
      | .medium => inner.policy.complexity.mediumPriority
      | .high => inner.policy.complexity.highPriority) := by
    cases inner.classify request with
    | low => exact hbounds _ (by simp)
    | medium => exact hbounds _ (by simp)
    | high => exact hbounds _ (by simp)
  have hwait : now - enqueuedAt < maxReading := Nat.lt_of_le_of_lt (Nat.sub_le _ _) hnow
  unfold checkedPriorityScore
  dsimp only
  -- Every step moves the score by at most two million points.
  have haffinity := hbase.add (hboost.guard ((request.cacheReadHit = some true ||
    (request.cacheReadHit.isNone && cacheObserved inner.policy request session now true)) = true))
  have hrecent := haffinity.add ((hprompt.add ((half_boost hprompt).2.guard
    (session.any (fun session => session.lastInteraction = .toolOutput) = true))).guard
      ((request.interaction = .userPrompt && session.any (fun session =>
        now - session.lastActivity ≤ fromMillis inner.policy.recentPromptWindowMs)) = true))
  have houtput := hrecent.sub (htool.guard (request.interaction = .toolOutput))
  have halias := houtput.sub (hasync.guard (isAsync request = true))
  have hidle := halias.sub (idlePenalty_points inner.policy session now)
  rw [add_guarded (hbase.add_i64 hboost (by omega)), some_bind, prompt_step haffinity (by omega) hprompt,
    some_bind, sub_guarded (hrecent.sub_i64 htool (by omega)), some_bind,
    sub_guarded (houtput.sub_i64 hasync (by omega)), some_bind, idle_step halias (by omega) session hnow, some_bind,
    div_u128 hwait (by omega), some_bind, Int.toNat_natCast, hidle.add_i64 (intervalPoints_points _ _) (by omega)]
  rfl

/-- A sum of `u64`s. -/
def checkedSum (values : List Nat) : Option Nat := (IntType.u64.sum (values.map Int.ofNat)).map Int.toNat

/-- `rolling_fit`; beside the sums it only uses saturating operations. -/
def checkedRollingFit (limit : QuotaLimit) (events : List UsageEvent) (inputTokens outputTokens now : Nat) :
    Option Fit :=
  if (requestCap limit).isNone && limit.maxInputTokens.isNone && limit.maxOutputTokens.isNone &&
      limit.maxTotalTokens.isNone then some { atTime := some now, impossible := false }
  else do
    let active := releaseOrder limit events
    let fits := capFit limit inputTokens outputTokens
    let reqs ← checkedSum (active.map (fun _ => 1))
    let input ← checkedSum (active.map (fun event => event.2.1))
    let output ← checkedSum (active.map (fun event => event.2.2))
    some (if fits reqs input output then { atTime := some now, impossible := false }
      else releaseFit fits active reqs input output)

/-- The first loop of `readiness`; an early return is an error. -/
def checkedQuotaReadiness (s : State) (request : ScheduleRequest) (inputTokens outputTokens now : Nat) :
    List (QuotaLimit × Nat) → Nat → Option (Except Fit Nat)
  | [], ready => some (.ok ready)
  | (limit, index) :: rest, ready =>
    if !ruleMatches limit request then checkedQuotaReadiness s request inputTokens outputTokens now rest ready
    else if limit.maxInputTokens.any (fun cap => cap < inputTokens) ||
        limit.maxOutputTokens.any (fun cap => cap < outputTokens) ||
        limit.maxTotalTokens.any (fun cap => cap < satAdd inputTokens outputTokens) then
      some (.error { atTime := none, impossible := true })
    else do
      let rolling ← checkedRollingFit limit (s.events.filter (fun event => eventMatches limit request event now))
        inputTokens outputTokens now
      (if rolling.impossible then some (.error rolling)
      else
        let ready := (rolling.atTime.toList ++
          pacedInstants s index limit request inputTokens outputTokens).foldl max ready
        checkedQuotaReadiness s request inputTokens outputTokens now rest ready)

/-- `readiness`. -/
def checkedReadiness (policy : SchedulingPolicy) (s : State) (request : ScheduleRequest)
    (inputTokens outputTokens now : Nat) : Option Fit :=
  if !policy.enabled then some { atTime := some now, impossible := false }
  else do
    match ← checkedQuotaReadiness s request inputTokens outputTokens now policy.limits.zipIdx now with
    | .error fit => some fit
    | .ok ready =>
      if concurrencyBlocked policy s request then
        some { atTime := if now < ready then some ready else none, impossible := false }
      else some { atTime := some ready, impossible := false }

/-- `prune_events` saturates throughout. -/
def checkedPruneEvents (policy : SchedulingPolicy) (now : Nat) (s : State) : Option State :=
  some (pruneEvents policy now s)

/-- The limit caps what is sent in a window. -/
def QuotaLimit.Rolling (limit : QuotaLimit) : Prop :=
  limit.maxRps.isSome ∨ limit.maxRequests.isSome ∨ limit.maxInputTokens.isSome ∨ limit.maxOutputTokens.isSome ∨
    limit.maxTotalTokens.isSome

theorem checkedSum_eq (values : List Nat) :
    checkedSum values = if values.sum < 2 ^ 64 then some values.sum else none := by
  have hsum : (values.map Int.ofNat).sum = (values.sum : Int) := by
    induction values with
    | nil => rfl
    | cons value values ih =>
      rw [List.map_cons, List.sum_cons, ih, List.sum_cons, Nat.cast_add]
      rfl
  have hpos : ∀ value ∈ values.map Int.ofNat, 0 ≤ value := by
    intro value hvalue
    obtain ⟨natural, -, rfl⟩ := List.mem_map.mp hvalue
    exact Int.natCast_nonneg natural
  unfold checkedSum
  rw [IntType.sum_eq_fit (by decide) hpos, hsum]
  have hholds : IntType.u64.Holds (values.sum : Int) ↔ values.sum < 2 ^ 64 := by
    unfold IntType.Holds IntType.u64
    dsimp only
    omega
  unfold IntType.fit
  simp only [hholds]
  split
  · rfl
  · rfl

variable {limit : QuotaLimit} {events : List UsageEvent} {inputTokens outputTokens now : Nat}

theorem QuotaLimit.rolling_iff : limit.Rolling ↔ ¬ ((requestCap limit).isNone && limit.maxInputTokens.isNone &&
    limit.maxOutputTokens.isNone && limit.maxTotalTokens.isNone) = true := by
  unfold QuotaLimit.Rolling requestCap
  cases limit.maxRps <;> cases limit.maxRequests <;> cases limit.maxInputTokens <;>
    cases limit.maxOutputTokens <;> cases limit.maxTotalTokens <;> simp

/-- The three sums of `rolling_fit`. -/
private theorem sums_eq (limit : QuotaLimit) (events : List UsageEvent) :
    ((releaseOrder limit events).map (fun _ => 1)).sum = events.length ∧
      ((releaseOrder limit events).map (fun entry => entry.2.1)).sum = inputSum events ∧
      ((releaseOrder limit events).map (fun entry => entry.2.2)).sum = outputSum events := by
  refine ⟨?_, releaseOrder_inputs limit events, releaseOrder_outputs limit events⟩
  rw [List.map_const', List.sum_replicate_nat, Nat.mul_one, (releaseOrder_perm limit events).length_eq,
    List.length_map]

/-- Sums that fit are what the build without checks computes. -/
theorem checkedRollingFit_eq (inputTokens outputTokens now : Nat) (h : limit.Rolling → Unwrapped events) :
    checkedRollingFit limit events inputTokens outputTokens now =
      some (rollingFit limit events inputTokens outputTokens now) := by
  obtain ⟨hreqs, hinput, houtput⟩ := sums_eq limit events
  have hlength : (releaseOrder limit events).length = events.length := by
    rw [(releaseOrder_perm limit events).length_eq, List.length_map]
  unfold checkedRollingFit rollingFit
  split
  · rfl
  next huncapped =>
    have hsums := h (QuotaLimit.rolling_iff.mpr huncapped)
    simp only [checkedSum_eq, hreqs, hinput, houtput, if_pos hsums.requests, if_pos hsums.input,
      if_pos hsums.output, Option.bind_eq_bind, Option.bind_some, sumU64, hlength,
      Nat.mod_eq_of_lt hsums.input, Nat.mod_eq_of_lt hsums.output]

/-- A result under a rolling cap means that every sum fitted. -/
theorem unwrapped_of_checkedRollingFit (hrolling : limit.Rolling) {fit : Fit}
    (h : checkedRollingFit limit events inputTokens outputTokens now = some fit) : Unwrapped events := by
  obtain ⟨hreqs, hinput, houtput⟩ := sums_eq limit events
  unfold checkedRollingFit at h
  rw [if_neg (QuotaLimit.rolling_iff.mp hrolling)] at h
  obtain ⟨reqs, hreqs', h⟩ := Option.bind_eq_some_iff.mp h
  obtain ⟨input, hinput', h⟩ := Option.bind_eq_some_iff.mp h
  obtain ⟨output, houtput', -⟩ := Option.bind_eq_some_iff.mp h
  have hfits : ∀ {values : List Nat} {total : Nat}, checkedSum values = some total → values.sum < 2 ^ 64 := by
    intro values total hsum
    rw [checkedSum_eq] at hsum
    by_contra hover
    rw [if_neg hover] at hsum
    cases hsum
  exact ⟨hreqs ▸ hfits hreqs', hinput ▸ hfits hinput', houtput ▸ hfits houtput'⟩

/-- Nothing the scheduler asks of this state at `now` overflows, underflows or divides by zero. -/
structure State.ComputesAt (inner : Inner) (s : State) (now : Nat) : Prop where
  readiness : ∀ request inputTokens outputTokens,
    checkedReadiness inner.policy s request inputTokens outputTokens now =
      some (Scheduling.readiness inner.policy s request inputTokens outputTokens now)
  prune : checkedPruneEvents inner.policy now s = some (pruneEvents inner.policy now s)
  priority : ∀ request session enqueuedAt, checkedPriorityScore inner request session enqueuedAt now =
    some (priorityScore inner request session enqueuedAt now)

/-- The reservations in the window of a limit with rolling caps, of one provider and credential, hold
no more tokens than a `u64` does. -/
def State.TokensFitAt (policy : SchedulingPolicy) (s : State) (now : Nat) : Prop :=
  policy.enabled = true → ∀ limit ∈ policy.limits, limit.Rolling → ∀ provider authScope,
    limit.provider.all (fun name => name = provider) = true →
      Unwrapped (limit.seen provider authScope now s.events)

variable {inner : Inner} {policy : SchedulingPolicy} {s : State} {request : ScheduleRequest}

private theorem checkedQuotaReadiness_eq {entries : List (QuotaLimit × Nat)}
    (h : ∀ entry ∈ entries, ruleMatches entry.1 request = true → entry.1.Rolling →
      Unwrapped (counted entry.1 request now s.events)) (ready : Nat) :
    checkedQuotaReadiness s request inputTokens outputTokens now entries ready =
      some (quotaReadiness s request inputTokens outputTokens now entries ready) := by
  induction entries generalizing ready with
  | nil => rfl
  | cons entry rest ih =>
    obtain ⟨limit, index⟩ := entry
    have hrest := ih fun entry hentry => h entry (List.mem_cons_of_mem _ hentry)
    unfold checkedQuotaReadiness quotaReadiness
    cases hmatches : ruleMatches limit request with
    | false => exact hrest ready
    | true =>
      have hfit := checkedRollingFit_eq inputTokens outputTokens now
        (h (limit, index) List.mem_cons_self hmatches)
      unfold counted at hfit
      simp only [Bool.not_true, Bool.false_eq_true, if_false, hfit, Option.bind_eq_bind, Option.bind_some, hrest]
      split
      · rfl
      · split
        · rfl
        · rfl

/-- A valid limit has room for a request without tokens once its window is empty. -/
private theorem rollingFit_possible (hvalid : limit.Valid) (events : List UsageEvent) (now : Nat) :
    (rollingFit limit events 0 0 now).impossible = false := by
  obtain ⟨last, hlast, hempty⟩ := limit.unexpired_eventually events now
  have hadmits : limit.Admits 0 0 [] := by
    refine ⟨fun cap hcap => (hvalid.requests cap hcap).1, fun rps hrps => ?_, fun cap _ => Nat.zero_le _,
      fun cap _ => Nat.zero_le _, fun cap _ => Nat.zero_le _⟩
    exact Nat.mul_pos (hvalid.rps rps hrps).1 (hvalid.window (.inl (Option.isSome_of_eq_some hrps)))
  have hfits : fitsAfter limit 0 0 (limit.unexpired events last) = true := by
    rw [hempty]
    exact (fitsAfter_iff hvalid (by decide) (by decide) (by decide)).mpr hadmits
  obtain ⟨instant, hfit, -⟩ := rollingFit_le hlast hfits
  rw [hfit]

/-- A request without tokens is refused by no valid limit, so every limit that selects it adds up. -/
private theorem unwrapped_of_checkedQuotaReadiness {entries : List (QuotaLimit × Nat)}
    (hvalid : ∀ entry ∈ entries, entry.1.Valid) {ready : Nat} {outcome : Except Fit Nat}
    (h : checkedQuotaReadiness s request 0 0 now entries ready = some outcome) :
    ∀ entry ∈ entries, ruleMatches entry.1 request = true → entry.1.Rolling →
      Unwrapped (counted entry.1 request now s.events) := by
  induction entries generalizing ready with
  | nil => exact fun _ hentry => nomatch hentry
  | cons entry rest ih =>
    obtain ⟨limit, index⟩ := entry
    have hlimit : limit.Valid := hvalid (limit, index) List.mem_cons_self
    have hrest := @ih fun entry hentry => hvalid entry (List.mem_cons_of_mem _ hentry)
    unfold checkedQuotaReadiness at h
    cases hmatches : ruleMatches limit request with
    | false =>
      rw [hmatches] at h
      intro entry hentry hselected
      rcases List.mem_cons.mp hentry with rfl | hentry
      · rw [hmatches] at hselected
        cases hselected
      · exact hrest h entry hentry hselected
    | true =>
      have hsize : ∀ cap : Option Nat, cap.any (fun cap => cap < 0) = false := by
        intro cap
        cases cap with
        | none => rfl
        | some cap => exact decide_eq_false (Nat.not_lt_zero cap)
      have hzero : satAdd 0 0 = 0 := rfl
      simp only [hmatches, hzero, hsize, Bool.not_true, Bool.or_self, Bool.false_eq_true, if_false] at h
      obtain ⟨rolling, hrolling, h⟩ := Option.bind_eq_some_iff.mp h
      have hfirst : limit.Rolling → Unwrapped (counted limit request now s.events) :=
        fun hrolls => unwrapped_of_checkedRollingFit hrolls hrolling
      have hfit := (checkedRollingFit_eq 0 0 now hfirst).symm.trans hrolling
      rw [← Option.some.inj hfit, rollingFit_possible hlimit] at h
      intro entry hentry hselected
      rcases List.mem_cons.mp hentry with rfl | hentry
      · exact hfirst
      · exact hrest h entry hentry hselected

/-- A request of a provider and credential that the limit selects. -/
private def QuotaLimit.sampleRequest (limit : QuotaLimit) (provider authScope : String) : ScheduleRequest :=
  .plain provider authScope (limit.model.getD "")

private theorem ruleMatches_sampleRequest {provider : String}
    (hprovider : limit.provider.all (fun name => name = provider) = true) (authScope : String) :
    ruleMatches limit (limit.sampleRequest provider authScope) = true := by
  unfold ruleMatches
  rw [Bool.and_eq_true]
  refine ⟨hprovider, ?_⟩
  unfold QuotaLimit.sampleRequest
  cases limit.model with
  | none => rfl
  | some model => exact decide_eq_true rfl

/-- Scheduler arithmetic. Under a validated policy, in every state, be it one a run reaches or one a critical
section comes by on its way, everything is computed exactly at a reading if and only if the tokens
recorded in the windows then fit. -/
theorem arithmetic_safe_iff (hvalid : inner.policy.validate = .ok ()) : ∀ (s : State), ∀ now < maxReading,
    (s.ComputesAt inner now ↔ s.TokensFitAt inner.policy now) := by
  intro s now hnow
  constructor
  · intro hcomputes henabled limit hlimit hrolling provider authScope hprovider
    have hready := hcomputes.readiness (limit.sampleRequest provider authScope) 0 0
    unfold checkedReadiness at hready
    rw [henabled] at hready
    simp only [Bool.not_true, Bool.false_eq_true, if_false] at hready
    obtain ⟨outcome, houtcome, -⟩ := Option.bind_eq_some_iff.mp hready
    have hvalids : ∀ entry ∈ inner.policy.limits.zipIdx, entry.1.Valid := fun entry hentry =>
      SchedulingPolicy.validate_limits hvalid entry.1 (List.fst_mem_of_mem_zipIdx hentry)
    obtain ⟨index, hindex⟩ := List.mem_iff_getElem?.mp hlimit
    have hcounted := unwrapped_of_checkedQuotaReadiness hvalids houtcome (limit, index)
      (List.mk_mem_zipIdx_iff_getElem?.mpr hindex) (ruleMatches_sampleRequest hprovider authScope) hrolling
    rwa [counted_eq_seen] at hcounted
  · intro hfit
    refine ⟨fun request inputTokens outputTokens => ?_, rfl,
      fun request session enqueuedAt => checkedPriorityScore_eq hvalid request session enqueuedAt hnow⟩
    unfold checkedReadiness Scheduling.readiness
    cases henabled : inner.policy.enabled with
    | false => rfl
    | true =>
      have hsums : ∀ entry ∈ inner.policy.limits.zipIdx, ruleMatches entry.1 request = true → entry.1.Rolling →
          Unwrapped (counted entry.1 request now s.events) := by
        intro entry hentry hselected hrolling
        rw [counted_eq_seen]
        exact hfit henabled entry.1 (List.fst_mem_of_mem_zipIdx hentry) hrolling _ _
          ((Bool.and_eq_true _ _).mp hselected).1
      rw [checkedQuotaReadiness_eq hsums]
      simp only [Bool.not_true, Bool.false_eq_true, if_false, Option.bind_eq_bind, Option.bind_some]
      cases quotaReadiness s request inputTokens outputTokens now inner.policy.limits.zipIdx now with
      | error fit => rfl
      | ok ready =>
        dsimp only
        split
        · rfl
        · rfl

section Witness

/-- A limit that counts requests and no tokens. -/
private def requestsOnly : Inner :=
  .plain { enabled := true, limits := [{ windowSeconds := 60, maxRequests := some 100 }], queueCoalesceMs := 0 }

private def estimated (outputTokens : Nat) : ScheduleRequest :=
  { ScheduleRequest.plain "openai" "key" "gpt" with outputTokens }

/-- Two clients ask for as many output tokens as a `u64` holds, and for one. -/
private def twoEstimates : Sys := (scheduler requestsOnly).replay .initial [.enqueue (estimated maxU64) 0, .read 0,
  .pass 0 0 undisturbed, .enqueue (estimated 1) 0, .read 1, .pass 1 0 undisturbed]

private theorem twoEstimates_run : (scheduler requestsOnly).Run (fun _ _ => True) twoEstimates :=
  .replay .initial (by decide)

theorem arithmetic_safe_iff_requests_only :
    twoEstimates.state.ComputesAt requestsOnly 0 ↔ twoEstimates.state.TokensFitAt requestsOnly.policy 0 :=
  arithmetic_safe_iff rfl twoEstimates.state 0 (by decide)

/-- With both requests under way, the sum of their tokens overflows for everyone who comes next. -/
theorem quota_sum_overflows : requestsOnly.policy.validate = .ok () ∧
    (scheduler requestsOnly).Run (fun _ _ => True) twoEstimates ∧
    checkedReadiness requestsOnly.policy twoEstimates.state (estimated 1) 0 1 0 = none ∧
    ¬ twoEstimates.state.ComputesAt requestsOnly 0 := by
  have hnone : checkedReadiness requestsOnly.policy twoEstimates.state (estimated 1) 0 1 0 = none := by decide
  refine ⟨rfl, twoEstimates_run, hnone, fun hcomputes => ?_⟩
  have hsome := hcomputes.readiness (estimated 1) 0 1
  rw [hnone] at hsome
  cases hsome

end Witness
end Kaiion.Scheduling
