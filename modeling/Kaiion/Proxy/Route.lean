import Kaiion.Durable.OwnedJobs
import Kaiion.Request.Normalize

/-! Which execution mode a request gets. -/
namespace Kaiion.Proxy
open Durable

structure ModelPricing where
  inputUsdPerMillion : Float
  outputUsdPerMillion : Float
  batchInputUsdPerMillion : Float
  batchOutputUsdPerMillion : Float

structure RoutingPolicy where
  maxDirectCostUsd : Float
  maxDirectPremiumUsd : Float
  models : String → Option ModelPricing

structure RouteDecision where
  mode : Mode
  reason : String
  estimatedInputTokens : Option Nat := none
  outputTokenLimit : Option Nat := none
  estimatedDirectCostUsd : Option Float := none
  estimatedBatchCostUsd : Option Float := none
  estimatedDirectPremiumUsd : Option Float := none

/-- The item types that are priced as text. -/
def textTypes : List String := ["message", "input_text", "output_text", "function", "function_call",
  "function_call_output", "text", "json_schema", "json_object", "object", "array", "string", "number",
  "integer", "boolean", "null"]

mutual
def containsNonTextInput : Value → Bool
  | .array items => anyNonTextItem items
  | .object members => ((Members.get members "type").bind Value.asStr).any (fun kind => !textTypes.contains kind) ||
      anyNonTextMember members
  | _ => false

def anyNonTextItem : List Value → Bool
  | [] => false
  | item :: rest => containsNonTextInput item || anyNonTextItem rest

def anyNonTextMember : List (String × Value) → Bool
  | [] => false
  | (_, value) :: rest => containsNonTextInput value || anyNonTextMember rest
end

def costUsd (inputTokens outputTokens : Nat) (inputPrice outputPrice : Float) : Float :=
  (Float.ofNat inputTokens * inputPrice + Float.ofNat outputTokens * outputPrice) / 1000000.0

/-- `RoutingPolicy::decide`. -/
def RoutingPolicy.decide (crates : Crates) (policy : RoutingPolicy) (body : Value) : RouteDecision :=
  match ((body.get "model").bind Value.asStr).bind policy.models with
  | none => { mode := .batch, reason := "unknown_model_pricing" }
  | some pricing =>
    if ((body.pointer ["reasoning", "effort"]).bind Value.asStr).any
        (fun effort => ["medium", "high", "xhigh", "max"].contains effort) then
      { mode := .batch, reason := "reasoning_workload" }
    else if containsNonTextInput body then
      { mode := .batch, reason := "unpriced_modality_or_hosted_tool" }
    else
      match ((body.get "max_output_tokens").bind Value.asU64).filter (fun limit => 0 < limit) with
      | none => { mode := .batch, reason := "unbounded_output" }
      | some outputTokens =>
        let inputTokens := (estimateTokens crates body).1
        let direct := costUsd inputTokens outputTokens pricing.inputUsdPerMillion pricing.outputUsdPerMillion
        let batch := costUsd inputTokens outputTokens pricing.batchInputUsdPerMillion
          pricing.batchOutputUsdPerMillion
        if !direct.isFinite || !batch.isFinite then { mode := .batch, reason := "cost_estimate_overflow" }
        else
          let premium := if direct - batch < 0.0 then 0.0 else direct - batch
          let allowed := direct ≤ policy.maxDirectCostUsd && premium ≤ policy.maxDirectPremiumUsd
          { mode := if allowed then .direct else .batch
            reason := if allowed then "within_direct_allowance" else "batch_savings"
            estimatedInputTokens := some inputTokens
            outputTokenLimit := some outputTokens
            estimatedDirectCostUsd := some direct
            estimatedBatchCostUsd := some batch
            estimatedDirectPremiumUsd := some premium }

/-- What routing needs of the application state. -/
structure Router where
  crates : Crates
  mode : Mode
  provider : String
  policy : RoutingPolicy

/-- The request an auto body stands for on the Batch path, if Batch supports it. -/
def Router.batchRequest (router : Router) (headers : HeaderMap) (body : Value) :
    Except ProxyError (Option NormalizedRequest) := do
  if ← batchSupported router.crates body headers then
    return some (← fromHeaders router.crates body router.provider headers)
  else return none

/-- The job this batch request already has; the store is read twice, and others may write in between. -/
def Router.existingJob (router : Router) (atCheck atFind : Database) (auth : UpstreamAuth) :
    Option NormalizedRequest → Except ProxyError (Option Job)
  | none => .ok none
  | some request => do
    atCheck.checkIdempotency (auth.fingerprint router.crates) request
    (atFind.find router.crates.json (auth.fingerprint router.crates) request.requestHash).mapError .persistence

/-- `route`. -/
def Router.route (router : Router) (atCheck atFind : Database) (headers : HeaderMap) (body : Value) :
    Except ProxyError RouteDecision := do
  let mode ← resolveMode router.crates headers router.mode
  if mode ≠ .auto then return { mode, reason := "explicit_mode" }
  let auth ← UpstreamAuth.fromHeaders headers
  let batchRequest ← router.batchRequest headers body
  let existing ← router.existingJob atCheck atFind auth batchRequest
  if existing.isSome then return { mode := .batch, reason := "existing_batch_job" }
  let providerBody ← upstreamBody body
  let decision := router.policy.decide router.crates providerBody
  if decision.mode = .batch && batchRequest.isNone then
    return { mode := .direct, reason := "batch_not_supported" }
  return decision

end Kaiion.Proxy
