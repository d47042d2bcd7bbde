import Kaiion.Foundation.Timers
import Kaiion.Scheduling.Dispatch

/-! The pacing table key by key: each instant is a timer, and a dispatch pushes back the timers of the
limits that select it. -/
namespace Kaiion.Scheduling
open Foundation

variable {inner : Inner} {pacing : PacingKey → Option Nat} {key : PacingKey} {now : Nat} {s : State}

/-- The pause that a request's tokens cost under a cap. -/
def QuotaLimit.tokenPause (inner : Inner) (limit : QuotaLimit) (cap : Option Nat) (tokens : Nat) : Option Nat :=
  cap.bind (fun cap => if 0 < tokens then some (inner.durationForTokens tokens limit.windowSeconds cap) else none)

/-- The pause that a request costs under a limit that selects it. -/
def QuotaLimit.pause (inner : Inner) (limit : QuotaLimit) (inputTokens outputTokens : Nat) : PaceMetric → Option Nat
  | .requests => limit.maxRps.map inner.durationForRate
  | .inputTokens => limit.tokenPause inner limit.maxInputTokens inputTokens
  | .outputTokens => limit.tokenPause inner limit.maxOutputTokens outputTokens
  | .totalTokens => limit.tokenPause inner limit.maxTotalTokens (satAdd inputTokens outputTokens)

/-- The pause that a request costs at a key of the pacing table. -/
def ScheduleRequest.pause (inner : Inner) (request : ScheduleRequest) (inputTokens outputTokens : Nat)
    (key : PacingKey) : Option Nat :=
  inner.policy.limits[key.ruleIndex]?.bind (fun limit =>
    if ruleMatches limit request ∧
        key = pacingKey key.ruleIndex limit request.provider request.authScope key.metric then
      limit.pause inner inputTokens outputTokens key.metric
    else none)

/-- The pause that `rebuild_pacing` replays for an event. -/
def UsageEvent.pause (inner : Inner) (event : UsageEvent) (key : PacingKey) : Option Nat :=
  event.request.pause inner event.inputTokens event.outputTokens key

private theorem pace_key (timer : PacingKey → Option Nat) (key other : PacingKey) (now duration : Nat) :
    pace timer other now duration key = if key = other then pushBack (timer key) now (some duration) else timer key := by
  unfold pace
  split
  next h => rw [h, pushBack]
  · rfl

variable {request : ScheduleRequest} {inputTokens outputTokens : Nat}

/-- One metric of a limit pushes back its own timer. -/
private def paceMetric (inner : Inner) (index : Nat) (limit : QuotaLimit) (request : ScheduleRequest)
    (inputTokens outputTokens now : Nat) (pacing : PacingKey → Option Nat) (metric : PaceMetric) :
    PacingKey → Option Nat :=
  match limit.pause inner inputTokens outputTokens metric with
  | some duration => pace pacing (pacingKey index limit request.provider request.authScope metric) now duration
  | none => pacing

private theorem paceMetric_key (index : Nat) (limit : QuotaLimit) (pacing : PacingKey → Option Nat)
    (metric : PaceMetric) :
    paceMetric inner index limit request inputTokens outputTokens now pacing metric key =
      if key = pacingKey index limit request.provider request.authScope metric then
        pushBack (pacing key) now (limit.pause inner inputTokens outputTokens metric)
      else pacing key := by
  unfold paceMetric
  cases limit.pause inner inputTokens outputTokens metric with
  | none => simp [pushBack]
  | some duration => exact pace_key _ _ _ _ _

private theorem paceLimit_eq (index : Nat) (limit : QuotaLimit) (pacing : PacingKey → Option Nat) :
    paceLimit inner index limit request inputTokens outputTokens now pacing =
      [PaceMetric.requests, .inputTokens, .outputTokens, .totalTokens].foldl
        (paceMetric inner index limit request inputTokens outputTokens now) pacing := by
  have hrate : paceMetric inner index limit request inputTokens outputTokens now pacing .requests =
      paceLimit inner index { limit with maxInputTokens := none, maxOutputTokens := none, maxTotalTokens := none }
        request inputTokens outputTokens now pacing := by
    unfold paceMetric QuotaLimit.pause
    cases limit.maxRps <;> rfl
  rw [List.foldl_cons, hrate]
  refine List.foldl_ext _ (fun pacing (item : PaceMetric × Option Nat × Nat) =>
    paceMetric inner index limit request inputTokens outputTokens now pacing item.1) _ fun pacing item hitem => ?_
  simp only [tokenMetrics, List.mem_cons, List.not_mem_nil, or_false] at hitem
  rcases hitem with rfl | rfl | rfl <;> unfold paceMetric QuotaLimit.pause QuotaLimit.tokenPause
  · cases limit.maxInputTokens with
    | none => rfl
    | some cap => by_cases htokens : 0 < inputTokens <;> simp [htokens]
  · cases limit.maxOutputTokens with
    | none => rfl
    | some cap => by_cases htokens : 0 < outputTokens <;> simp [htokens]
  · cases limit.maxTotalTokens with
    | none => rfl
    | some cap => by_cases htokens : 0 < satAdd inputTokens outputTokens <;> simp [htokens]

/-- One limit pushes back the timers of its own keys. -/
theorem paceLimit_key (index : Nat) (limit : QuotaLimit) (pacing : PacingKey → Option Nat) :
    paceLimit inner index limit request inputTokens outputTokens now pacing key =
      if key = pacingKey index limit request.provider request.authScope key.metric then
        pushBack (pacing key) now (limit.pause inner inputTokens outputTokens key.metric)
      else pacing key := by
  have hmetric : ∀ metric, key = pacingKey index limit request.provider request.authScope metric →
      key.metric = metric := fun metric h => congrArg PacingKey.metric h
  have hother : ∀ metric, key.metric ≠ metric →
      key ≠ pacingKey index limit request.provider request.authScope metric := fun metric h heq => h (hmetric metric heq)
  rw [paceLimit_eq]
  simp only [List.foldl_cons, List.foldl_nil, paceMetric_key]
  cases hkey : key.metric <;> simp [hother, hkey]

/-- Of all limits only the one in the place of a key pushes its timer back. -/
private theorem foldl_limits (limits : List QuotaLimit) (start : Nat) (pacing : PacingKey → Option Nat) :
    (limits.zipIdx start).foldl (fun pacing entry =>
        if ruleMatches entry.1 request then
          paceLimit inner entry.2 entry.1 request inputTokens outputTokens now pacing else pacing) pacing key =
      pushBack (pacing key) now (if start ≤ key.ruleIndex then
        limits[key.ruleIndex - start]?.bind (fun limit =>
          if ruleMatches limit request ∧
              key = pacingKey key.ruleIndex limit request.provider request.authScope key.metric then
            limit.pause inner inputTokens outputTokens key.metric
          else none) else none) := by
  induction limits generalizing start pacing with
  | nil => simp [pushBack]
  | cons limit limits ih =>
    have hstep : (if ruleMatches limit request then
          paceLimit inner start limit request inputTokens outputTokens now pacing else pacing) key =
        pushBack (pacing key) now (if ruleMatches limit request ∧
            key = pacingKey start limit request.provider request.authScope key.metric then
          limit.pause inner inputTokens outputTokens key.metric else none) := by
      by_cases hmatches : ruleMatches limit request = true
      · rw [if_pos hmatches, paceLimit_key]
        by_cases hkey : key = pacingKey start limit request.provider request.authScope key.metric
        · rw [if_pos hkey, if_pos ⟨hmatches, hkey⟩]
        · rw [if_neg hkey, if_neg fun h => hkey h.2, pushBack]
      · rw [if_neg hmatches, if_neg fun h => hmatches h.1, pushBack]
    have helsewhere : start ≠ key.ruleIndex → (if ruleMatches limit request ∧
            key = pacingKey start limit request.provider request.authScope key.metric then
          limit.pause inner inputTokens outputTokens key.metric else none) = none :=
      fun hne => if_neg fun h => hne (congrArg PacingKey.ruleIndex h.2).symm
    rw [List.zipIdx_cons, List.foldl_cons, ih, hstep]
    rcases Nat.lt_trichotomy start key.ruleIndex with hlt | heq | hgt
    · rw [helsewhere (Nat.ne_of_lt hlt), pushBack, if_pos (Nat.succ_le_of_lt hlt), if_pos (Nat.le_of_lt hlt),
        show key.ruleIndex - start = key.ruleIndex - (start + 1) + 1 by omega, List.getElem?_cons_succ]
    · subst heq
      have hlater : ¬ key.ruleIndex + 1 ≤ key.ruleIndex := Nat.not_succ_le_self _
      rw [if_neg hlater, if_pos (Nat.le_refl _), Nat.sub_self, List.getElem?_cons_zero]
      rfl
    · have hlater : ¬ start + 1 ≤ key.ruleIndex := by omega
      rw [helsewhere (Nat.ne_of_gt hgt), if_neg hlater, if_neg (Nat.not_le.mpr hgt)]
      rfl

theorem updatePacing_key : (updatePacing inner request inputTokens outputTokens now s).pacing key =
    pushBack (s.pacing key) now (request.pause inner inputTokens outputTokens key) := by
  refine (foldl_limits inner.policy.limits 0 s.pacing).trans ?_
  rw [if_pos (Nat.zero_le _), Nat.sub_zero]
  rfl

/-- A rebuilt table is the replay of the ledger. -/
theorem rebuildPacing_key : (rebuildPacing inner s).pacing key =
    replayed UsageEvent.atTime (fun event => event.pause inner key) s.events := by
  have hreplay : ∀ (events : List UsageEvent) (s : State) (timer : Option Nat), s.pacing key = timer →
      (events.foldl (fun s event => updatePacing inner event.request event.inputTokens event.outputTokens
        event.atTime s) s).pacing key =
      events.foldl (fun timer event => pushBack timer event.atTime (event.pause inner key)) timer := by
    intro events
    induction events with
    | nil => exact fun _ _ h => h
    | cons event events ih =>
      intro s timer h
      refine ih _ _ ?_
      rw [updatePacing_key, h]
      rfl
  exact hreplay s.events _ none rfl

end Kaiion.Scheduling
