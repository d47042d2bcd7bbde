import Kaiion.Proxy.LiveRetries
import Kaiion.Proxy.SpentKeys

/-! The ways of an auto request into Batch, and that none of them leads to a request that cannot be
normalized. -/
namespace Kaiion.Proxy
open Durable Foundation Scheduling Prog

/-- The policy never gives the reason `route` keeps for itself. -/
theorem RoutingPolicy.decide_reason (crates : Crates) (policy : RoutingPolicy) (body : Value) :
    (policy.decide crates body).reason ≠ "batch_not_supported" := by
  unfold RoutingPolicy.decide
  split
  · simp
  · split_ifs
    · simp
    · simp
    · split
      · simp
      · dsimp only
        split_ifs <;> simp

section Route
variable {router : Router} {headers : HeaderMap} {body : Value} {atCheck atFind : Database} {decision : RouteDecision}

/-- An auto request is routed with or without a batch request in hand. -/
private theorem route_cases (hmode : resolveMode router.crates headers router.mode = .ok .auto)
    (h : router.route atCheck atFind headers body = .ok decision) :
    (batchSupported router.crates body headers = .ok true ∧ decision.reason ≠ "batch_not_supported") ∨
      (batchSupported router.crates body headers = .ok false ∧ decision.mode ≠ .batch) := by
  cases hauth : UpstreamAuth.fromHeaders headers with
  | error error =>
    unfold Router.route at h
    rw [hmode, hauth] at h
    cases h
  | ok auth =>
    rw [Router.route_auto atCheck atFind hmode hauth] at h
    obtain ⟨batchRequest, hbatch, hrest⟩ := bind_ok h
    unfold Router.batchRequest at hbatch
    obtain ⟨supported, hsupported, hbatch⟩ := bind_ok hbatch
    obtain ⟨existing, hexisting, hrest⟩ := bind_ok hrest
    cases supported with
    | true =>
      obtain ⟨request, -, hsome⟩ := bind_ok hbatch
      cases hsome
      refine .inl ⟨hsupported, ?_⟩
      split at hrest
      · cases hrest
        simp
      · obtain ⟨providerBody, -, hdecision⟩ := bind_ok hrest
        rw [if_neg (by simp)] at hdecision
        cases hdecision
        exact router.policy.decide_reason router.crates providerBody
    | false =>
      cases hbatch
      cases hexisting
      refine .inr ⟨hsupported, ?_⟩
      obtain ⟨providerBody, -, hdecision⟩ := bind_ok hrest
      dsimp only at hdecision
      split at hdecision
      · cases hdecision
        simp
      next hmode =>
        cases hdecision
        simpa using hmode

/-- Where an auto request is routed agrees with whether it normalizes. -/
theorem route_agrees {providerNamespace : String}
    (hvalid : ∃ provider, canonicalProviderUrl router.crates providerNamespace = .ok provider)
    (hmode : resolveMode router.crates headers router.mode = .ok .auto)
    (h : router.route atCheck atFind headers body = .ok decision) :
    (decision.mode = .batch → ∃ request, fromHeaders router.crates body providerNamespace headers = .ok request) ∧
      (decision.reason = "batch_not_supported" →
        ∀ request, fromHeaders router.crates body providerNamespace headers ≠ .ok request) := by
  rcases route_cases hmode h with ⟨hsupported, hreason⟩ | ⟨hsupported, hbatch⟩
  · exact ⟨fun _ => (batchSupported_iff hvalid).mp hsupported, fun heq => absurd heq hreason⟩
  · refine ⟨fun heq => absurd heq hbatch, fun _ request hrequest => ?_⟩
    rw [(batchSupported_iff hvalid).mpr ⟨request, hrequest⟩] at hsupported
    cases hsupported

end Route

/-- The permission to fall back is the compatibility check of an auto request. -/
theorem DirectCall.supported_of_fallback {call : DirectCall} {n : Nat} {delay : Option Nat} {request : ScheduleRequest}
    (h : call.makeScheduleRequest n delay = .ok request) (hfallback : request.allowBatchFallback = true) :
    batchSupported call.router.crates call.body call.headers = .ok true := by
  unfold DirectCall.makeScheduleRequest at h
  obtain ⟨_, -, hrest⟩ := bind_ok h
  obtain ⟨_, -, hrest⟩ := bind_ok hrest
  obtain ⟨_, -, hrest⟩ := bind_ok hrest
  obtain ⟨allowed, hallowed, hrest⟩ := bind_ok hrest
  obtain ⟨_, -, hrest⟩ := bind_ok hrest
  obtain ⟨_, -, hrest⟩ := bind_ok hrest
  cases hrest
  cases (show allowed = true from hfallback)
  unfold DirectCall.allowBatchFallback at hallowed
  split at hallowed
  · exact hallowed
  · cases hallowed

/-- A live call falls back only with a request that Batch supports. -/
theorem DirectCall.supported_of_batch {call : DirectCall} {allowed : (op : Op) → op.Reply → Prop}
    {events : List (Event Op.Reply)} {reason : String}
    (hrun : Runs allowed call.scheduledDirectResponse events (.ok (.batch reason))) :
    batchSupported call.router.crates call.body call.headers = .ok true := by
  obtain ⟨account, -, hverdict⟩ := Judged.run hrun passes_scheduledDirectResponse
  obtain ⟨_, _, _, hmake, hfallback⟩ := hverdict.batch reason rfl
  exact supported_of_fallback hmake hfallback

/-- The compatibility check accepts exactly what normalization accepts, so no auto request that the
route or the scheduler moves to Batch is refused there, and none that stays live as unsupported could
have gone. -/
theorem batch_check_agrees_with_normalization {crates : Crates} {providerNamespace : String}
    (hvalid : ∃ provider, canonicalProviderUrl crates providerNamespace = .ok provider) (headers : HeaderMap)
    (body : Value) :
    (batchSupported crates body headers = .ok true ↔
      ∃ request, fromHeaders crates body providerNamespace headers = .ok request) ∧
    (batchSupported crates body headers = .ok false ∨ (∃ error, batchSupported crates body headers = .error error) →
      ∃ error, fromHeaders crates body providerNamespace headers = .error error) ∧
    (∀ (router : Router) (atCheck atFind : Database) (decision : RouteDecision), router.crates = crates →
      resolveMode crates headers router.mode = .ok .auto →
      router.route atCheck atFind headers body = .ok decision →
      (decision.mode = .batch → ∃ request, fromHeaders crates body providerNamespace headers = .ok request) ∧
      (decision.reason = "batch_not_supported" →
        ∃ error, fromHeaders crates body providerNamespace headers = .error error)) ∧
    (∀ (call : DirectCall) (allowed : (op : Op) → op.Reply → Prop) (events : List (Event Op.Reply)) (reason : String),
      call.router.crates = crates → call.headers = headers → call.body = body →
      Runs allowed call.scheduledDirectResponse events (.ok (.batch reason)) →
      ∃ request, fromHeaders crates body providerNamespace headers = .ok request) := by
  have refused : (∀ request, fromHeaders crates body providerNamespace headers ≠ .ok request) →
      ∃ error, fromHeaders crates body providerNamespace headers = .error error := by
    intro h
    cases hresult : fromHeaders crates body providerNamespace headers with
    | error error => exact ⟨error, rfl⟩
    | ok request => exact absurd hresult (h request)
  refine ⟨batchSupported_iff hvalid, fun h => refused fun request hrequest => ?_, ?_, ?_⟩
  · rw [(batchSupported_iff hvalid).mpr ⟨request, hrequest⟩] at h
    rcases h with h | ⟨error, h⟩ <;> cases h
  · rintro router atCheck atFind decision rfl hmode hroute
    obtain ⟨hbatch, hunsupported⟩ := route_agrees hvalid hmode hroute
    exact ⟨hbatch, fun hreason => refused (hunsupported hreason)⟩
  · rintro call allowed events reason rfl rfl rfl hrun
    exact (batchSupported_iff hvalid).mp (DirectCall.supported_of_batch hrun)

/-- A request with an idempotency key and nothing else normalizes. -/
theorem batch_check_agrees_on_keyed_request : ∃ request, fromHeaders sampleCrates
    (.object [("input", .string "hi"), ("model", .string "gpt-5")]) "https://api.openai.com/v1"
    [("idempotency-key", ⟨utf8 "k1"⟩)] = .ok request :=
  (batch_check_agrees_with_normalization ⟨_, rfl⟩ [("idempotency-key", ⟨utf8 "k1"⟩)]
    (.object [("input", .string "hi"), ("model", .string "gpt-5")])).1.mp rfl

end Kaiion.Proxy
