import Kaiion.Durable.StoreInvariant
import Kaiion.Proxy.Route
import Kaiion.Request.Identity

/-! Idempotency keys that already belong to a durable job. -/
namespace Kaiion.Proxy
open Durable Foundation

/-- The stored form of an idempotency key within its provider and session. -/
def scopedKey (crates : Crates) (provider sessionKey key : String) : String :=
  crates.hexDigest (encodeAll (scopeComponents provider sessionKey (some key) ++
    [component "identity" "idempotency-v1"]))

/-- The outcomes the documentation promises for a used key: the job that used it, or 409. -/
def Reuses (router : Router) (headers : HeaderMap) (body : Value) (requestHash : String)
    (result : Except ProxyError RouteDecision) : Prop :=
  (∃ decision request, result = .ok decision ∧ decision.mode = .batch ∧
    fromHeaders router.crates body router.provider headers = .ok request ∧ request.requestHash = requestHash) ∨
  ∃ message, result = .error (.conflict message)

variable {router : Router} {headers : HeaderMap} {body : Value} {auth : UpstreamAuth}

/-- `route` in auto mode, once the credentials are read. -/
theorem Router.route_auto (atCheck atFind : Database) (hmode : resolveMode router.crates headers router.mode = .ok .auto)
    (hauth : UpstreamAuth.fromHeaders headers = .ok auth) :
    router.route atCheck atFind headers body = (do
      let batchRequest ← router.batchRequest headers body
      let existing ← router.existingJob atCheck atFind auth batchRequest
      if existing.isSome then return { mode := .batch, reason := "existing_batch_job" }
      let providerBody ← upstreamBody body
      let decision := router.policy.decide router.crates providerBody
      if decision.mode = .batch && batchRequest.isNone then
        return { mode := .direct, reason := "batch_not_supported" }
      return decision) := by
  unfold Router.route
  rw [hmode, hauth]
  rfl

/-- A request with a key in this scope, as far as its headers and metadata say. -/
structure Scoped (router : Router) (headers : HeaderMap) (body : Value) (auth : UpstreamAuth)
    (provider sessionKey key : String) : Prop where
  mode : resolveMode router.crates headers router.mode = .ok .auto
  auth : UpstreamAuth.fromHeaders headers = .ok auth
  provider : canonicalProviderUrl router.crates router.provider = .ok provider
  session : durableSessionKey router.crates body headers = .ok (some sessionKey)
  key : identityHeader headers idempotencyHeader = .ok (some key)

variable {provider sessionKey key : String}

private theorem scopedKey_of_reading (h : Scoped router headers body auth provider sessionKey key) {r : Reading}
    (hr : r.Of router.crates body router.provider headers) :
    (r.request router.crates).idempotencyHash = some (scopedKey router.crates provider sessionKey key) := by
  cases h.provider.symm.trans hr.provider
  cases h.session.symm.trans hr.durableSessionKey_eq
  have hidempotency : r.idempotency = some key := Except.ok.inj (hr.idempotency.symm.trans h.key)
  rw [show (r.request router.crates).idempotencyHash = _ from snd_identityHashes router.crates r.provider
    r.sessionKey r.idempotency _, hidempotency]
  rfl

/-- Batch serves the request: the key decides. -/
private theorem supported_reuses {atCheck atFind : Database} (h : Scoped router headers body auth provider sessionKey key)
    (hcheck : atCheck.Sound router.crates.json) (hfind : atFind.Sound router.crates.json)
    (hreads : atFind.Readable router.crates.json) (hext : atCheck.Extends atFind) {row : JobRow} {stored : RequestRow}
    (hstored : (row, stored) ∈ atCheck.joined)
    (howner : stored.authHash = auth.fingerprint router.crates)
    (hscope : stored.idempotencyHash = some (scopedKey router.crates provider sessionKey key))
    (hsupported : batchSupported router.crates body headers = .ok true) :
    Reuses router headers body row.requestHash (router.route atCheck atFind headers body) := by
  obtain ⟨request, hrequest⟩ := (batchSupported_iff ⟨provider, h.provider⟩).mp hsupported
  obtain ⟨r, hr, rfl⟩ := fromHeaders_ok_iff.mp hrequest
  have hbatch : router.batchRequest headers body = .ok (some (r.request router.crates)) := by
    unfold Router.batchRequest
    rw [hsupported, hrequest]
    rfl
  have hchecked := hcheck.wellFormed.checkIdempotency hstored hscope (scopedKey_of_reading h hr)
  rw [howner] at hchecked
  rw [Router.route_auto atCheck atFind h.mode h.auth, hbatch]
  by_cases hsame : row.requestHash = (r.request router.crates).requestHash
  · obtain ⟨hrow, hmem, hid⟩ := Database.mem_joined.mp hstored
    obtain ⟨job, hjob⟩ := hfind.find_registered hreads hext hrow
    rw [hcheck.owned stored hmem row hrow hid, howner, hsame] at hjob
    rw [if_neg (not_not.mpr hsame)] at hchecked
    refine .inl ⟨{ mode := .batch, reason := "existing_batch_job" }, _, ?_, rfl, hrequest, hsame.symm⟩
    simp only [bind, Except.bind, Router.existingJob, hchecked, hjob]
    rfl
  · rw [if_pos hsame] at hchecked
    refine .inr ⟨keyConflict, ?_⟩
    simp only [bind, Except.bind, Router.existingJob, hchecked]

theorem upstreamBody_error {error : ProxyError} (h : upstreamBody body = .error error) :
    ∃ message, error = .badRequest message := by
  unfold upstreamBody at h
  split at h
  · split at h
    · cases h
    · dsimp only at h
      split at h
      · exact ⟨_, (Except.error.inj h).symm⟩
      · cases h
  · exact ⟨_, (Except.error.inj h).symm⟩

/-- The policy decides for one of the two execution modes. -/
theorem RoutingPolicy.decide_mode (crates : Crates) (policy : RoutingPolicy) (body : Value) :
    (policy.decide crates body).mode = .batch ∨ (policy.decide crates body).mode = .direct := by
  unfold RoutingPolicy.decide
  split
  · exact .inl rfl
  · split_ifs
    · exact .inl rfl
    · exact .inl rfl
    · split
      · exact .inl rfl
      · dsimp only
        split_ifs <;> simp

/-- Batch cannot serve the request: nothing looks at the key. -/
theorem unsupported_goes_live (h : Scoped router headers body auth provider sessionKey key)
    (hsupported : batchSupported router.crates body headers = .ok false) (atCheck atFind : Database) :
    (∃ decision, router.route atCheck atFind headers body = .ok decision ∧ decision.mode = .direct) ∨
      ∃ message, router.route atCheck atFind headers body = .error (.badRequest message) := by
  have hbatch : router.batchRequest headers body = .ok none := by
    unfold Router.batchRequest
    rw [hsupported]
    rfl
  rw [Router.route_auto atCheck atFind h.mode h.auth, hbatch]
  simp only [bind, Except.bind, Router.existingJob]
  cases hupstream : upstreamBody body with
  | error error =>
    obtain ⟨message, rfl⟩ := upstreamBody_error hupstream
    exact .inr ⟨message, rfl⟩
  | ok providerBody =>
    rcases router.policy.decide_mode router.crates providerBody with hmode | hmode
    · exact .inl ⟨{ mode := .direct, reason := "batch_not_supported" }, by simp [hmode]; rfl, rfl⟩
    · exact .inl ⟨router.policy.decide router.crates providerBody, by simp [hmode]; rfl, hmode⟩

private theorem batchSupported_total (h : Scoped router headers body auth provider sessionKey key) :
    ∃ supported, batchSupported router.crates body headers = .ok supported := by
  obtain ⟨session, hsession, -⟩ := bind_ok h.session
  unfold batchSupported
  split
  · exact ⟨_, rfl⟩
  · split
    · exact ⟨_, rfl⟩
    · split
      · exact ⟨_, rfl⟩
      · rw [hsession, h.key]
        exact ⟨_, rfl⟩

/-- A key that belongs to a stored job reuses this job or conflicts, exactly when the Batch path could
serve the new body; every other body is answered live. The outcomes then in the store read back. -/
theorem used_key_is_reused_iff {router : Router} {atCheck atFind : Database}
    (hreach : Relation.ReflTransGen (StoreStep router.crates.json) .empty atCheck)
    (hlater : Relation.ReflTransGen (StoreStep router.crates.json) atCheck atFind)
    (hreads : atFind.Readable router.crates.json) {headers : HeaderMap}
    {body : Value} {auth : UpstreamAuth} {provider sessionKey key : String}
    (h : Scoped router headers body auth provider sessionKey key) {row : JobRow} {stored : RequestRow}
    (hstored : (row, stored) ∈ atCheck.joined) (howner : stored.authHash = auth.fingerprint router.crates)
    (hscope : stored.idempotencyHash = some (scopedKey router.crates provider sessionKey key)) :
    Reuses router headers body row.requestHash (router.route atCheck atFind headers body) ↔
      batchSupported router.crates body headers = .ok true := by
  have hcheck := StoreStep.run_sound hreach (Database.empty_sound _)
  constructor
  · intro hreuses
    obtain ⟨supported, hsupported⟩ := batchSupported_total h
    cases supported with
    | true => exact hsupported
    | false =>
      rcases unsupported_goes_live h hsupported atCheck atFind with ⟨decision, hroute, hmode⟩ | ⟨message, hroute⟩
      · rcases hreuses with ⟨other, -, hresult, hbatch, -⟩ | ⟨message, hresult⟩
        · cases hroute.symm.trans hresult
          rw [hmode] at hbatch
          cases hbatch
        · cases hroute.symm.trans hresult
      · rcases hreuses with ⟨other, -, hresult, -⟩ | ⟨message, hresult⟩
        · cases hroute.symm.trans hresult
        · cases hroute.symm.trans hresult
  · exact supported_reuses h hcheck (StoreStep.run_sound hlater hcheck) hreads
      (StoreStep.run_spec hlater hcheck.wellFormed).2 hstored howner hscope

section Witness

private def spender : HeaderMap := [("authorization", ⟨utf8 "Bearer a"⟩), ("idempotency-key", ⟨utf8 "k1"⟩)]

private def spenderAuth : UpstreamAuth := ⟨"Bearer a", none, none⟩

private noncomputable def spending : Router where
  crates := sampleCrates
  mode := .auto
  provider := "https://api.openai.com/v1"
  policy := { maxDirectCostUsd := 0.0, maxDirectPremiumUsd := 0.0, models := fun _ => none }

private def firstBody : Members := [("input", .string "hi"), ("model", .string "gpt-5")]

private def firstReading : Reading :=
  ⟨firstBody, "gpt-5", none, some "k1", "idempotency:k1", "https://api.openai.com/v1"⟩

private noncomputable def fingerprint : String := spenderAuth.fingerprint spending.crates

/-- The store after the first use of the key. -/
private noncomputable def spent : Database :=
  (Database.empty.enqueue spending.crates.json "job" fingerprint spending.provider
    (firstReading.request spending.crates)).1

private noncomputable def spentRow : JobRow :=
  .queued "job" fingerprint (firstReading.request spending.crates).requestHash "gpt-5"

private noncomputable def spentRequest : RequestRow where
  jobId := "job"
  provider := spending.provider
  authHash := fingerprint
  idempotencyHash := some (scopedKey spending.crates "https://api.openai.com/v1" "idempotency:k1" "k1")
  bodyJson := spending.crates.json.print (firstReading.request spending.crates).batchBody

private theorem spent_joined : (spentRow, spentRequest) ∈ spent.joined := by
  have hkey : (firstReading.request spending.crates).idempotencyHash =
      some (scopedKey spending.crates "https://api.openai.com/v1" "idempotency:k1" "k1") := rfl
  unfold spent
  rw [Database.enqueue_empty spending.crates.json "job" fingerprint spending.provider hkey rfl]
  exact Database.mem_joined.mpr ⟨List.mem_singleton_self _, List.mem_singleton_self _, rfl⟩

private theorem spent_reachable : Relation.ReflTransGen (StoreStep spending.crates.json) .empty spent :=
  .single (StoreStep.enqueued "job" fingerprint spending.provider (firstReading.request spending.crates)
    List.not_mem_nil)

private theorem spent_readable : spent.Readable spending.crates.json :=
  (Database.empty_readable _).enqueue "job" fingerprint spending.provider (firstReading.request spending.crates)

private theorem spent_scoped (body : Value) (h : body.get "client_metadata" = none) :
    Scoped spending spender body spenderAuth "https://api.openai.com/v1" "idempotency:k1" "k1" where
  mode := by decide
  auth := by decide
  provider := rfl
  session := by
    unfold durableSessionKey
    rw [h]
    rfl
  key := by decide

/-- The same request finds its job. -/
theorem used_key_is_reused_retry : Reuses spending spender (.object firstBody) spentRow.requestHash
    (spending.route spent spent spender (.object firstBody)) :=
  (used_key_is_reused_iff spent_reachable .refl spent_readable (spent_scoped (.object firstBody) rfl)
    spent_joined rfl rfl).mpr (by decide)

/-- The same key with a body that continues a stored conversation: the request is sent live, with no
conflict. -/
theorem used_key_goes_live :
    let body : Value := .object (firstBody ++ [("previous_response_id", .string "resp_1")])
    Relation.ReflTransGen (StoreStep spending.crates.json) .empty spent ∧ (spentRow, spentRequest) ∈ spent.joined ∧
      Scoped spending spender body spenderAuth "https://api.openai.com/v1" "idempotency:k1" "k1" ∧
      spentRequest.authHash = spenderAuth.fingerprint spending.crates ∧
      spentRequest.idempotencyHash =
        some (scopedKey spending.crates "https://api.openai.com/v1" "idempotency:k1" "k1") ∧
      spending.route spent spent spender body = .ok { mode := .direct, reason := "batch_not_supported" } ∧
      ¬ Reuses spending spender body spentRow.requestHash (spending.route spent spent spender body) := by
  intro body
  have hroute : spending.route spent spent spender body = .ok { mode := .direct, reason := "batch_not_supported" } := rfl
  refine ⟨spent_reachable, spent_joined, spent_scoped body rfl, rfl, rfl, hroute, ?_⟩
  rw [hroute]
  rintro (⟨decision, -, hdecision, hmode, -⟩ | ⟨message, hconflict⟩)
  · cases hdecision
    cases hmode
  · cases hconflict

end Witness
end Kaiion.Proxy
