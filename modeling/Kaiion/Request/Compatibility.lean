import Kaiion.Foundation.Result
import Kaiion.Request.Normalize
import Mathlib.Tactic.SplitIfs

/-! What normalization reads from a request it accepts, and the check that predicts it. -/
namespace Kaiion
open Durable Foundation

/-- A field with a value the Batch path cannot serve. -/
def hasUnsupportedField (members : Members) : Bool :=
  (members.get "stream").any (fun value => !value.isBoolean) ||
    (members.get "store").any (fun value => value ≠ .bool false) ||
    (members.get "previous_response_id").any (fun value => !value.isNull) ||
    (members.get "conversation").any (fun value => !value.isNull) ||
    (members.get "background").any (fun value => value ≠ .bool false)

@[simp] theorem hasUnsupportedField_insert_model (value : Value) (members : Members) :
    hasUnsupportedField (members.insert "model" value) = hasUnsupportedField members := by
  simp [hasUnsupportedField]

/-- The parts of a request that make up its durable job. -/
structure Reading where
  members : Members
  requested : String
  session : Option String
  idempotency : Option String
  sessionKey : String
  provider : String

/-- The model name at the provider. -/
def Reading.model (r : Reading) : String := (modelAlias r.requested).1

/-- The members sent to the provider, before `store` is forced. -/
def Reading.batchMembers (r : Reading) : Members :=
  ((r.members.insert "model" (.string r.model)).insert "stream" (.bool false)).remove "stream_options"

/-- The body that identifies the request. -/
def Reading.hashedBody (r : Reading) : Value := .object (removeVolatileCodexMetadata r.batchMembers)

def Reading.hashes (crates : Crates) (r : Reading) : String × Option String :=
  identityHashes crates r.provider r.sessionKey r.idempotency (utf8 (crates.json.print r.hashedBody))

/-- The durable request with these parts. -/
def Reading.request (crates : Crates) (r : Reading) : NormalizedRequest where
  batchBody := .object (r.batchMembers.insert "store" (.bool false))
  requestHash := (r.hashes crates).1
  model := r.model
  asyncAlias := (modelAlias r.requested).2
  idempotencyHash := (r.hashes crates).2

/-- An acceptable request with these parts. -/
structure Reading.Of (crates : Crates) (body : Value) (providerNamespace : String) (headers : HeaderMap)
    (r : Reading) : Prop where
  object : body = .object r.members
  requested : requestedModel body = some r.requested
  model : r.model ≠ ""
  fields : hasUnsupportedField r.members = false
  session : identityHeader headers sessionHeader = .ok r.session
  idempotency : identityHeader headers idempotencyHeader = .ok r.idempotency
  sessionKey : sessionKeyOf crates r.session r.idempotency (body.get "client_metadata") = some r.sessionKey
  provider : canonicalProviderUrl crates providerNamespace = .ok r.provider

private theorem refuse_bind_ok {condition : Bool} {message : String} {α : Type} {f : Unit → Except ProxyError α}
    {result : α} (h : (refuse condition message >>= f) = .ok result) : condition = false ∧ f () = .ok result := by
  cases condition with
  | false => exact ⟨rfl, h⟩
  | true => cases h

private theorem fromHeaders_reads {crates : Crates} {body : Value} {providerNamespace : String}
    {headers : HeaderMap} {request : NormalizedRequest}
    (h : fromHeaders crates body providerNamespace headers = .ok request) :
    ∃ r : Reading, r.Of crates body providerNamespace headers ∧ request = r.request crates := by
  unfold fromHeaders at h
  obtain ⟨members, hmembers, hrest⟩ := bind_ok h
  obtain ⟨requested, hrequested, hrest⟩ := bind_ok hrest
  obtain ⟨hmodel, hrest⟩ := refuse_bind_ok hrest
  obtain ⟨hstream, hrest⟩ := refuse_bind_ok hrest
  obtain ⟨hstore, hrest⟩ := refuse_bind_ok hrest
  obtain ⟨hprevious, hrest⟩ := refuse_bind_ok hrest
  obtain ⟨hothers, hrest⟩ := refuse_bind_ok hrest
  obtain ⟨session, hsession, hrest⟩ := bind_ok hrest
  obtain ⟨idempotency, hidempotency, hrest⟩ := bind_ok hrest
  obtain ⟨sessionKey, hkey, hrest⟩ := bind_ok hrest
  obtain ⟨provider, hprovider, hresult⟩ := bind_ok hrest
  have hobject : body = .object members := by
    cases body with
    | object other => exact congrArg Value.object (Option.some.inj (okOr_ok hmembers))
    | _ => cases hmembers
  subst hobject
  refine ⟨{ members, requested, session, idempotency, sessionKey, provider },
    { object := rfl, requested := okOr_ok hrequested, model := of_decide_eq_false hmodel, fields := ?_
      session := hsession, idempotency := hidempotency, sessionKey := ?_, provider := hprovider },
    (Except.ok.inj hresult).symm⟩
  · rw [← hasUnsupportedField_insert_model (.string (modelAlias requested).1)]
    simp only [hasUnsupportedField, hstream, hstore, hprevious, Bool.or_assoc, hothers, Bool.or_false]
  · simpa using okOr_ok hkey

private theorem fromHeaders_of_reads {crates : Crates} {body : Value} {providerNamespace : String}
    {headers : HeaderMap} {r : Reading} (h : r.Of crates body providerNamespace headers) :
    fromHeaders crates body providerNamespace headers = .ok (r.request crates) := by
  obtain ⟨hobject, hrequested, hmodel, hfields, hsession, hidempotency, hkey, hprovider⟩ := h
  subst hobject
  rw [← hasUnsupportedField_insert_model (.string (modelAlias r.requested).1)] at hfields
  simp only [hasUnsupportedField, Bool.or_eq_false_iff] at hfields
  obtain ⟨⟨⟨⟨hstream, hstore⟩, hprevious⟩, hconversation⟩, hbackground⟩ := hfields
  have hempty : decide ((modelAlias r.requested).1 = "") = false := decide_eq_false hmodel
  have hkey : sessionKeyOf crates r.session r.idempotency
      ((Members.insert "model" (.string (modelAlias r.requested).1) r.members).get "client_metadata") =
        some r.sessionKey := by
    rw [Members.get_insert_of_ne (by decide)]
    exact hkey
  unfold fromHeaders
  simp only [hrequested, Value.members?, okOr, hempty, hstream, hstore, hprevious, hconversation, hbackground,
    hsession, hidempotency, hkey, hprovider, refuse, bind, Except.bind]
  rfl

/-- Normalization accepts a request exactly by reading its parts. -/
theorem fromHeaders_ok_iff {crates : Crates} {body : Value} {providerNamespace : String}
    {headers : HeaderMap} {request : NormalizedRequest} :
    fromHeaders crates body providerNamespace headers = .ok request ↔
      ∃ r : Reading, r.Of crates body providerNamespace headers ∧ request = r.request crates := by
  constructor
  · exact fromHeaders_reads
  · rintro ⟨r, hr, rfl⟩
    exact fromHeaders_of_reads hr

theorem isSome_sessionKeyOf (crates : Crates) (session idempotency : Option String) (clientMetadata : Option Value) :
    (sessionKeyOf crates session idempotency clientMetadata).isSome =
      (session.isSome || (extractSessionKey crates clientMetadata).isSome || idempotency.isSome) := by
  simp [sessionKeyOf, Option.isSome_or, Bool.or_assoc]

private theorem batchSupported_object {crates : Crates} {members : Members} {requested : String}
    {headers : HeaderMap} (h : requestedModel (.object members) = some requested) :
    batchSupported crates (.object members) headers =
      if (modelAlias requested).1 = "" ∨ hasUnsupportedField members = true then .ok false
      else do
        let session ← identityHeader headers sessionHeader
        let idempotency ← identityHeader headers idempotencyHeader
        return (sessionKeyOf crates session idempotency (members.get "client_metadata")).isSome := by
  unfold batchSupported
  simp only [h, isSome_sessionKeyOf, Value.isObject, hasUnsupportedField, Value.get_object, Bool.or_eq_true,
    decide_eq_true_eq, Bool.not_true, Bool.false_eq_true, if_false, or_assoc]

private theorem batchSupported_reads {crates : Crates} {body : Value} {providerNamespace provider : String}
    {headers : HeaderMap} (hprovider : canonicalProviderUrl crates providerNamespace = .ok provider)
    (h : batchSupported crates body headers = .ok true) :
    ∃ r : Reading, r.Of crates body providerNamespace headers := by
  cases body with
  | object members =>
    cases hrequested : requestedModel (.object members) with
    | none => simp [batchSupported, hrequested] at h
    | some requested =>
      rw [batchSupported_object hrequested] at h
      split_ifs at h with hfields
      · cases h
      · obtain ⟨session, hsession, hrest⟩ := bind_ok h
        obtain ⟨idempotency, hidempotency, hrest⟩ := bind_ok hrest
        obtain ⟨sessionKey, hkey⟩ := Option.isSome_iff_exists.mp (Except.ok.inj hrest)
        rw [not_or, Bool.not_eq_true] at hfields
        exact ⟨{ members, requested, session, idempotency, sessionKey, provider },
          { object := rfl, requested := hrequested, model := hfields.1, fields := hfields.2, session := hsession
            idempotency := hidempotency, sessionKey := hkey, provider := hprovider }⟩
  | _ => cases h

private theorem batchSupported_of_reads {crates : Crates} {body : Value} {providerNamespace : String}
    {headers : HeaderMap} {r : Reading} (h : r.Of crates body providerNamespace headers) :
    batchSupported crates body headers = .ok true := by
  obtain ⟨hobject, hrequested, hmodel, hfields, hsession, hidempotency, hkey, -⟩ := h
  subst hobject
  have hkey : sessionKeyOf crates r.session r.idempotency (Members.get r.members "client_metadata") =
      some r.sessionKey := hkey
  rw [batchSupported_object hrequested, if_neg (by simp [hfields]; exact hmodel), hsession, hidempotency]
  simp only [bind, Except.bind, hkey]
  rfl

/-- The check accepts exactly the requests that normalization accepts. -/
theorem batchSupported_iff {crates : Crates} {body : Value} {providerNamespace : String} {headers : HeaderMap}
    (hprovider : ∃ provider, canonicalProviderUrl crates providerNamespace = .ok provider) :
    batchSupported crates body headers = .ok true ↔
      ∃ request, fromHeaders crates body providerNamespace headers = .ok request := by
  obtain ⟨provider, hprovider⟩ := hprovider
  constructor
  · intro h
    obtain ⟨r, hr⟩ := batchSupported_reads hprovider h
    exact ⟨r.request crates, fromHeaders_ok_iff.mpr ⟨r, hr, rfl⟩⟩
  · rintro ⟨request, h⟩
    obtain ⟨r, hr, -⟩ := fromHeaders_ok_iff.mp h
    exact batchSupported_of_reads hr

end Kaiion
