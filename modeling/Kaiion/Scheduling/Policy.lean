import Kaiion.Foundation.Result
import Kaiion.Text
import Mathlib.Algebra.GroupWithZero.Nat

/-! The scheduling policy and the checks it has to pass. Durations are in nanoseconds. -/
namespace Kaiion.Scheduling
open Foundation

def maxWindowSeconds : Nat := 31536000

def maxWaitMs : Nat := 86400000

/-- The largest `i64`, as a `u64`. -/
def maxI64 : Nat := 2 ^ 63 - 1

/-- The largest `u64`. -/
def maxU64 : Nat := 2 ^ 64 - 1

def fromSecs (seconds : Nat) : Nat := seconds * 1000000000

def fromMillis (millis : Nat) : Nat := millis * 1000000

structure QuotaLimit where
  provider : Option String := none
  model : Option String := none
  authScoped : Bool := false
  windowSeconds : Nat := 0
  maxRps : Option Nat := none
  maxRequests : Option Nat := none
  maxInputTokens : Option Nat := none
  maxOutputTokens : Option Nat := none
  maxTotalTokens : Option Nat := none
  maxConcurrency : Option Nat := none
  deriving DecidableEq, Repr

structure ComplexitySettings where
  lowInputTokens : Nat := 2048
  highInputTokens : Nat := 16384
  highToolCount : Nat := 4
  lowPriority : Int := 10
  mediumPriority : Int := 0
  highPriority : Int := -15
  deriving DecidableEq, Repr

structure SchedulingPolicy where
  enabled : Bool := false
  limits : List QuotaLimit := []
  maxWaitMs : Nat := 30000
  asyncMaxWaitMs : Nat := 180000
  maxRetries : Nat := 2
  maxPending : Nat := 10000
  maxPendingBytes : Nat := 134217728
  queueCoalesceMs : Nat := 2
  cacheAffinityWindowMs : Nat := 60000
  recentPromptWindowMs : Nat := 10000
  idleDecayMs : Nat := 120000
  agingIntervalMs : Nat := 1000
  highPriorityThreshold : Int := 30
  cacheAffinityBoost : Int := 40
  recentPromptBoost : Int := 30
  toolOutputPenalty : Int := 15
  idleDecayPenaltyPerInterval : Int := 5
  queueAgingBoostPerInterval : Int := 5
  asyncAliasPenalty : Int := 20
  batchOnCacheMiss : Bool := true
  defaultOutputTokens : Nat := 16384
  complexity : ComplexitySettings := {}
  deriving DecidableEq, Repr

def reject (condition : Bool) (message : String) : Except String Unit :=
  if condition then .error message else .ok ()

def SchedulingPolicy.validateLimit (index : Nat) (limit : QuotaLimit) : Except String Unit := do
  let hasRollingQuota := limit.maxRps.isSome || limit.maxRequests.isSome ||
    limit.maxInputTokens.isSome || limit.maxOutputTokens.isSome || limit.maxTotalTokens.isSome
  reject (hasRollingQuota && (limit.windowSeconds = 0 || maxWindowSeconds < limit.windowSeconds))
    s!"limits[{index}].window_seconds must be between 1 and {maxWindowSeconds}"
  reject (limit.maxRequests.isNone && limit.maxRps.isNone && limit.maxInputTokens.isNone &&
      limit.maxOutputTokens.isNone && limit.maxTotalTokens.isNone && limit.maxConcurrency.isNone)
    s!"limits[{index}] must define at least one quota"
  reject (limit.maxRps = some 0 || limit.maxRequests = some 0 || limit.maxInputTokens = some 0 ||
      limit.maxOutputTokens = some 0 || limit.maxTotalTokens = some 0 || limit.maxConcurrency = some 0)
    s!"limits[{index}] quota values must be greater than zero"
  reject (limit.provider.any isBlank || limit.model.any isBlank)
    s!"limits[{index}] provider/model cannot be blank"
  [("max_rps", limit.maxRps), ("max_requests", limit.maxRequests),
    ("max_input_tokens", limit.maxInputTokens), ("max_output_tokens", limit.maxOutputTokens),
    ("max_total_tokens", limit.maxTotalTokens), ("max_concurrency", limit.maxConcurrency)].forM
    fun (field, value) => reject (value.any (fun amount => maxI64 < amount))
      s!"limits[{index}].{field} is too large"

/-- `SchedulingPolicy::validate`. -/
def SchedulingPolicy.validate (policy : SchedulingPolicy) : Except String Unit := do
  reject (policy.maxWaitMs = 0 || Scheduling.maxWaitMs < policy.maxWaitMs)
    s!"max_wait_ms must be between 1 and {Scheduling.maxWaitMs}"
  reject (policy.asyncMaxWaitMs = 0 || Scheduling.maxWaitMs < policy.asyncMaxWaitMs)
    s!"async_max_wait_ms must be between 1 and {Scheduling.maxWaitMs}"
  reject (policy.agingIntervalMs = 0) "aging_interval_ms must be greater than zero"
  reject (policy.maxWaitMs < policy.queueCoalesceMs) "queue_coalesce_ms cannot exceed max_wait_ms"
  reject (policy.defaultOutputTokens = 0) "default_output_tokens must be greater than zero"
  reject (policy.maxPending = 0 || 1000000 < policy.maxPending)
    "max_pending must be between 1 and 1000000"
  reject (policy.maxPendingBytes = 0 || 4294967296 < policy.maxPendingBytes)
    "max_pending_bytes must be between 1 and 4294967296"
  [("high_priority_threshold", policy.highPriorityThreshold),
    ("cache_affinity_boost", policy.cacheAffinityBoost),
    ("recent_prompt_boost", policy.recentPromptBoost),
    ("tool_output_penalty", policy.toolOutputPenalty),
    ("idle_decay_penalty_per_interval", policy.idleDecayPenaltyPerInterval),
    ("queue_aging_boost_per_interval", policy.queueAgingBoostPerInterval),
    ("async_alias_penalty", policy.asyncAliasPenalty),
    ("complexity.low_priority", policy.complexity.lowPriority),
    ("complexity.medium_priority", policy.complexity.mediumPriority),
    ("complexity.high_priority", policy.complexity.highPriority)].forM
    fun (name, value) => reject (1000000 < value.natAbs) s!"{name} must be between -1000000 and 1000000"
  reject (policy.complexity.highInputTokens ≤ policy.complexity.lowInputTokens)
    "complexity.high_input_tokens must exceed low_input_tokens"
  reject (policy.complexity.highToolCount = 0) "complexity.high_tool_count must be greater than zero"
  policy.limits.zipIdx.forM fun (limit, index) => validateLimit index limit

def SchedulingPolicy.maxWait (policy : SchedulingPolicy) (asyncAlias : Bool) : Nat :=
  fromMillis (if asyncAlias then max policy.asyncMaxWaitMs policy.maxWaitMs else policy.maxWaitMs)

/-- What a validated limit satisfies. -/
structure QuotaLimit.Valid (limit : QuotaLimit) : Prop where
  window : limit.maxRps.isSome ∨ limit.maxRequests.isSome ∨ limit.maxInputTokens.isSome ∨
    limit.maxOutputTokens.isSome ∨ limit.maxTotalTokens.isSome → 0 < limit.windowSeconds
  rps : ∀ cap, limit.maxRps = some cap → 0 < cap ∧ cap ≤ maxI64
  requests : ∀ cap, limit.maxRequests = some cap → 0 < cap ∧ cap ≤ maxI64
  inputTokens : ∀ cap, limit.maxInputTokens = some cap → cap ≤ maxI64
  outputTokens : ∀ cap, limit.maxOutputTokens = some cap → cap ≤ maxI64
  totalTokens : ∀ cap, limit.maxTotalTokens = some cap → cap ≤ maxI64
  concurrency : ∀ cap, limit.maxConcurrency = some cap → 0 < cap

theorem reject_ok {condition : Bool} {message : String} (h : reject condition message = .ok ()) :
    condition = false := by
  cases condition with
  | false => rfl
  | true => cases h

private theorem validateLimit_ok {index : Nat} {limit : QuotaLimit}
    (h : SchedulingPolicy.validateLimit index limit = .ok ()) : limit.Valid := by
  unfold SchedulingPolicy.validateLimit at h
  obtain ⟨_, hwindow, h⟩ := bind_ok h
  obtain ⟨_, -, h⟩ := bind_ok h
  obtain ⟨_, hzero, h⟩ := bind_ok h
  obtain ⟨_, -, h⟩ := bind_ok h
  have hlarge := forM_ok h
  have hwindow := reject_ok hwindow
  have hzero := reject_ok hzero
  simp only [Bool.and_eq_false_iff, Bool.or_eq_false_iff, decide_eq_false_iff_not] at hwindow hzero
  have hcap : ∀ field value cap, (field, value) ∈ [("max_rps", limit.maxRps),
      ("max_requests", limit.maxRequests), ("max_input_tokens", limit.maxInputTokens),
      ("max_output_tokens", limit.maxOutputTokens), ("max_total_tokens", limit.maxTotalTokens),
      ("max_concurrency", limit.maxConcurrency)] → value = some cap → cap ≤ maxI64 := by
    rintro field value cap hmem rfl
    simpa using reject_ok (hlarge _ hmem)
  refine ⟨fun hany => ?_, fun cap h => ⟨?_, hcap "max_rps" _ cap (by simp) h⟩,
    fun cap h => ⟨?_, hcap "max_requests" _ cap (by simp) h⟩,
    fun cap h => hcap "max_input_tokens" _ cap (by simp) h,
    fun cap h => hcap "max_output_tokens" _ cap (by simp) h,
    fun cap h => hcap "max_total_tokens" _ cap (by simp) h, fun cap h => ?_⟩
  · grind
  · grind
  · grind
  · grind

/-- Every limit of a validated policy is valid. -/
theorem SchedulingPolicy.validate_limits {policy : SchedulingPolicy} (h : policy.validate = .ok ()) :
    ∀ limit ∈ policy.limits, limit.Valid := by
  unfold SchedulingPolicy.validate at h
  iterate 10 obtain ⟨_, -, h⟩ := bind_ok h
  intro limit hlimit
  obtain ⟨index, hindex⟩ := List.mem_iff_getElem?.mp hlimit
  exact validateLimit_ok (forM_ok h (limit, index) (List.mk_mem_zipIdx_iff_getElem?.mpr hindex))

/-- Every priority of a validated policy is moderate. -/
theorem SchedulingPolicy.validate_priorities {policy : SchedulingPolicy} (h : policy.validate = .ok ()) :
    ∀ value ∈ [policy.cacheAffinityBoost, policy.recentPromptBoost, policy.toolOutputPenalty,
      policy.asyncAliasPenalty, policy.complexity.lowPriority, policy.complexity.mediumPriority,
      policy.complexity.highPriority], -1000000 ≤ value ∧ value ≤ 1000000 := by
  unfold SchedulingPolicy.validate at h
  iterate 7 obtain ⟨_, -, h⟩ := bind_ok h
  obtain ⟨_, hranges, -⟩ := bind_ok h
  have hrange : ∀ name value, (name, value) ∈ [("high_priority_threshold", policy.highPriorityThreshold),
      ("cache_affinity_boost", policy.cacheAffinityBoost), ("recent_prompt_boost", policy.recentPromptBoost),
      ("tool_output_penalty", policy.toolOutputPenalty),
      ("idle_decay_penalty_per_interval", policy.idleDecayPenaltyPerInterval),
      ("queue_aging_boost_per_interval", policy.queueAgingBoostPerInterval),
      ("async_alias_penalty", policy.asyncAliasPenalty), ("complexity.low_priority", policy.complexity.lowPriority),
      ("complexity.medium_priority", policy.complexity.mediumPriority),
      ("complexity.high_priority", policy.complexity.highPriority)] → -1000000 ≤ value ∧ value ≤ 1000000 := by
    intro name value hmem
    have hle := reject_ok (forM_ok hranges (name, value) hmem)
    rw [decide_eq_false_iff_not] at hle
    omega
  intro value hvalue
  simp only [List.mem_cons, List.not_mem_nil, or_false] at hvalue
  rcases hvalue with rfl | rfl | rfl | rfl | rfl | rfl | rfl
  · exact hrange "cache_affinity_boost" _ (by simp)
  · exact hrange "recent_prompt_boost" _ (by simp)
  · exact hrange "tool_output_penalty" _ (by simp)
  · exact hrange "async_alias_penalty" _ (by simp)
  · exact hrange "complexity.low_priority" _ (by simp)
  · exact hrange "complexity.medium_priority" _ (by simp)
  · exact hrange "complexity.high_priority" _ (by simp)

end Kaiion.Scheduling
