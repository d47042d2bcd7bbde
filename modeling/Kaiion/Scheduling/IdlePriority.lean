import Kaiion.Scheduling.Section

/-! What an idle session does to the priority of its requests. Its boosts run out and its penalty
grows, but both end when pruning forgets the session. -/
namespace Kaiion.Scheduling

variable {inner : Inner} {policy : SchedulingPolicy} {request : ScheduleRequest} {session : SessionState}
variable {now later : Nat} {s : State}

/-- Pruning keeps the session. -/
def SessionState.kept (policy : SchedulingPolicy) (now : Nat) (session : SessionState) : Bool :=
  now - session.lastActivity ≤ fromMillis (min (policy.idleDecayMs * 8) maxU64)

/-- The points a session's last turn still earns. -/
def SessionState.boost (policy : SchedulingPolicy) (request : ScheduleRequest) (now : Nat)
    (session : SessionState) : Int :=
  (if request.cacheReadHit.isNone && cacheObserved policy request (some session) now true then
    policy.cacheAffinityBoost else 0) +
  (if request.interaction = .userPrompt && now - session.lastActivity ≤ fromMillis policy.recentPromptWindowMs then
    policy.recentPromptBoost + (if session.lastInteraction = .toolOutput then
      policy.recentPromptBoost.tdiv 2 else 0) else 0)

/-- The points a session loses for being idle. -/
def SessionState.penalty (policy : SchedulingPolicy) (now : Nat) (session : SessionState) : Int :=
  let age := now - session.lastActivity
  if fromMillis policy.idleDecayMs < age && 0 < policy.idleDecayMs then
    intervalPoints (age / 1000000 / policy.idleDecayMs - 1) policy.idleDecayPenaltyPerInterval
  else 0

private theorem priorityScore_some (enqueuedAt : Nat) :
    priorityScore inner request (some session) enqueuedAt now =
      priorityScore inner request none enqueuedAt now +
        (session.boost inner.policy request now - session.penalty inner.policy now) := by
  unfold priorityScore SessionState.boost SessionState.penalty
  have hnone : cacheObserved inner.policy request none now true = false := rfl
  dsimp only
  rw [hnone]
  simp only [Option.any_some, Option.any_none, Bool.and_false, Bool.or_false, Bool.false_eq_true, if_false,
    decide_eq_true_eq]
  by_cases hhit : request.cacheReadHit = some true
  · simp only [hhit, Option.isNone_some, Bool.false_and, decide_true, Bool.true_or, if_true, Bool.false_eq_true,
      if_false]
    omega
  · simp only [hhit, decide_false, Bool.false_or, if_false]
    omega

/-- Without a session only the time waited matters. -/
private theorem priorityScore_none {enqueuedAt enqueuedLater : Nat}
    (hwait : later - enqueuedLater = now - enqueuedAt) :
    priorityScore inner request none enqueuedLater later = priorityScore inner request none enqueuedAt now := by
  unfold priorityScore
  rw [hwait]
  rfl

theorem intervalPoints_mono {intervals longer : Nat} (h : intervals ≤ longer) (perInterval : Int) :
    intervalPoints intervals perInterval ≤ intervalPoints longer perInterval := by
  have hmul := Nat.mul_le_mul_right perInterval.toNat h
  unfold intervalPoints
  omega

/-- The penalty grows. -/
theorem SessionState.penalty_mono (h : now ≤ later) : session.penalty policy now ≤ session.penalty policy later := by
  have hage : now - session.lastActivity ≤ later - session.lastActivity := Nat.sub_le_sub_right h _
  have hintervals : (now - session.lastActivity) / 1000000 / policy.idleDecayMs - 1 ≤
      (later - session.lastActivity) / 1000000 / policy.idleDecayMs - 1 :=
    Nat.sub_le_sub_right (Nat.div_le_div_right (Nat.div_le_div_right hage)) 1
  have hpoints := intervalPoints_mono hintervals policy.idleDecayPenaltyPerInterval
  have hnonneg : 0 ≤ intervalPoints ((later - session.lastActivity) / 1000000 / policy.idleDecayMs - 1)
      policy.idleDecayPenaltyPerInterval := Int.natCast_nonneg _
  unfold SessionState.penalty
  dsimp only
  simp only [Bool.and_eq_true, decide_eq_true_eq]
  split
  next hidle =>
    rw [if_pos ⟨Nat.lt_of_lt_of_le hidle.1 hage, hidle.2⟩]
    exact hpoints
  · split
    · exact hnonneg
    · exact Int.le_refl 0

theorem cacheObserved_anti {hit : Bool} (h : now ≤ later)
    (hlater : cacheObserved policy request (some session) later hit = true) :
    cacheObserved policy request (some session) now hit = true := by
  unfold cacheObserved at hlater ⊢
  simp only [Option.any_some, Bool.and_eq_true, decide_eq_true_eq] at hlater ⊢
  exact ⟨hlater.1, Nat.le_trans (Nat.sub_le_sub_right h _) hlater.2⟩

/-- The boosts run out. -/
theorem SessionState.boost_anti (hcache : 0 ≤ policy.cacheAffinityBoost) (hprompt : 0 ≤ policy.recentPromptBoost)
    (h : now ≤ later) : session.boost policy request later ≤ session.boost policy request now := by
  have hextra : 0 ≤ if session.lastInteraction = .toolOutput then policy.recentPromptBoost.tdiv 2 else 0 := by
    split
    · exact Int.tdiv_nonneg hprompt (by decide)
    · exact Int.le_refl 0
  have hage : now - session.lastActivity ≤ later - session.lastActivity := Nat.sub_le_sub_right h _
  unfold SessionState.boost
  apply Int.add_le_add
  · split
    next hlater =>
      rw [Bool.and_eq_true] at hlater
      rw [if_pos (Bool.and_eq_true _ _ ▸ ⟨hlater.1, cacheObserved_anti h hlater.2⟩)]
    · split
      · exact hcache
      · exact Int.le_refl 0
  · generalize (if session.lastInteraction = .toolOutput then policy.recentPromptBoost.tdiv 2 else 0) = extra at hextra
    simp only [Bool.and_eq_true, decide_eq_true_eq]
    split
    next hlater => rw [if_pos ⟨hlater.1, Nat.le_trans hage hlater.2⟩]
    · split
      · exact Int.add_nonneg hprompt hextra
      · exact Int.le_refl 0

/-- A section finds the session if pruning keeps it. -/
private theorem pruneEvents_sessionOf (s : State) (request : ScheduleRequest) :
    (pruneEvents policy now s).sessionOf request = (s.sessionOf request).filter (SessionState.kept policy now) := by
  unfold State.sessionOf
  cases request.sessionId with
  | none => rfl
  | some sessionId => rfl

/-- Without a pruning that forgets the session in between, being idle longer never helps a request that
has waited as long; with one, it does not help exactly when the boosts made up for the penalty. -/
theorem idle_score_le_iff (inner : Inner) (s : State) (pending : Pending) {enqueuedAt enqueuedLater : Nat}
    (hcache : 0 ≤ inner.policy.cacheAffinityBoost) (hprompt : 0 ≤ inner.policy.recentPromptBoost)
    (htime : now ≤ later) (hwait : later - enqueuedLater = now - enqueuedAt) :
    ({ pending with enqueuedAt := enqueuedLater } : Pending).score inner
        (pruneEvents inner.policy later (pruneEvents inner.policy now s)) later ≤
      ({ pending with enqueuedAt } : Pending).score inner (pruneEvents inner.policy now s) now ↔
    ∀ session, s.sessionOf pending.request = some session → session.kept inner.policy now = true →
      session.kept inner.policy later = false →
      session.penalty inner.policy now ≤ session.boost inner.policy pending.request now := by
  have hbase : priorityScore inner pending.request none enqueuedLater later =
      priorityScore inner pending.request none enqueuedAt now := priorityScore_none hwait
  unfold Pending.score
  dsimp only
  rw [pruneEvents_sessionOf, pruneEvents_sessionOf]
  cases hsession : s.sessionOf pending.request with
  | none =>
    simp only [Option.filter_none]
    exact ⟨fun _ _ hnone => (by cases hnone), fun _ => Int.le_of_eq hbase⟩
  | some session =>
    have hsame : ∀ other, some session = some other → other = session := fun _ h => (Option.some.inj h).symm
    cases hnow : session.kept inner.policy now with
    | false =>
      rw [Option.filter_some, hnow]
      exact ⟨fun _ other hother hkept => (by rw [hsame other hother, hnow] at hkept; cases hkept),
        fun _ => Int.le_of_eq hbase⟩
    | true =>
      cases hlater : session.kept inner.policy later with
      | true =>
        have hpenalty : session.penalty inner.policy now ≤ session.penalty inner.policy later :=
          SessionState.penalty_mono htime
        have hboost : session.boost inner.policy pending.request later ≤ session.boost inner.policy pending.request now :=
          SessionState.boost_anti hcache hprompt htime
        rw [Option.filter_some, hnow, if_pos rfl, Option.filter_some, hlater, if_pos rfl, priorityScore_some,
          priorityScore_some]
        exact ⟨fun _ other hother _ hkept => (by rw [hsame other hother, hlater] at hkept; cases hkept),
          fun _ => by omega⟩
      | false =>
        rw [Option.filter_some, hnow, if_pos rfl, Option.filter_some, hlater, priorityScore_some]
        constructor
        · intro hle other hother _ _
          rw [hsame other hother]
          simp only [Bool.false_eq_true, if_false] at hle
          omega
        · intro hmade
          have hle := hmade session rfl hnow hlater
          simp only [Bool.false_eq_true, if_false]
          omega

section Counterexample

private def standard : Inner := .plain { enabled := true }

private def turnTaken : SchedulePermit :=
  { reservationId := none, provider := "openai", authScope := "key", model := "gpt", sessionId := some "session"
    interaction := .userPrompt, inputTokens := 0, outputTokens := 0, waited := 0 }

/-- The session's last turn ended at the start. -/
private def afterTurn : State := State.initial.settle 0 turnTaken none none none

private def nextTurn : Pending :=
  { request := { ScheduleRequest.plain "openai" "key" "gpt" with sessionId := some "session" }
    enqueuedAt := 960000000000, inputTokens := 0, outputTokens := 16384, bytes := 0, sender := 0 }

/-- After sixteen minutes under the default policy the session is thirty-five points down; a nanosecond
later it is forgotten and its requests have the points back. -/
theorem forgotten_session_gains :
    standard.policy.validate = .ok () ∧
    (0 ≤ standard.policy.cacheAffinityBoost ∧ 0 ≤ standard.policy.recentPromptBoost ∧
      0 ≤ standard.policy.toolOutputPenalty ∧ 0 ≤ standard.policy.idleDecayPenaltyPerInterval ∧
      0 ≤ standard.policy.queueAgingBoostPerInterval ∧ 0 ≤ standard.policy.asyncAliasPenalty) ∧
    nextTurn.score standard (pruneEvents standard.policy 960000000000 afterTurn) 960000000000 = -25 ∧
    ({ nextTurn with enqueuedAt := 960000000001 } : Pending).score standard
      (pruneEvents standard.policy 960000000001 (pruneEvents standard.policy 960000000000 afterTurn))
      960000000001 = 10 := by
  decide

/-- Just before, a minute more changes nothing: the session is known at both readings. -/
theorem idle_score_le_iff_known :
    ({ nextTurn with enqueuedAt := 960000000000 } : Pending).score standard
        (pruneEvents standard.policy 960000000000 (pruneEvents standard.policy 900000000000 afterTurn)) 960000000000 ≤
      ({ nextTurn with enqueuedAt := 900000000000 } : Pending).score standard
        (pruneEvents standard.policy 900000000000 afterTurn) 900000000000 :=
  (idle_score_le_iff standard afterTurn nextTurn (by decide) (by decide) (by decide) (by decide)).mpr
    fun session hsession _ hforgotten => by
      cases Option.some.inj hsession
      exact absurd hforgotten (by decide)

end Counterexample
end Kaiion.Scheduling
