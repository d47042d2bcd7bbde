import Kaiion.Durable.JobStore
import Kaiion.Request.Body

/-! Normalization of a request for the Batch path, and its durable identity. -/
namespace Kaiion
open Durable Foundation

def trimEndSlashes (text : String) : String :=
  .ofList (text.toList.reverse.dropWhile (fun c => c = '/')).reverse

/-- `canonical_provider_url`. -/
def canonicalProviderUrl (crates : Crates) (value : String) : Except ProxyError String :=
  match crates.parseUrl value with
  | .error error => .error (.badRequest s!"invalid upstream provider URL: {error}")
  | .ok url =>
    if url.query.isSome || url.fragment.isSome then
      .error (.badRequest "upstream provider URL cannot contain a query or fragment")
    else .ok (trimEndSlashes (url.printWith (trimEndSlashes url.path)))

/-- `remove_volatile_codex_metadata`. -/
def removeVolatileCodexMetadata (members : Members) : Members :=
  members.update "client_metadata" fun
    | .object metadata =>
      .object ((Members.remove "x-codex-window-id" metadata).remove "x-codex-turn-metadata")
    | value => value

def refuse (condition : Bool) (message : String) : Except ProxyError Unit :=
  if condition then .error (.badRequest message) else .ok ()

/-- The session a durable request belongs to: the session header, the client's metadata or, without
either, the idempotency key. -/
def sessionKeyOf (crates : Crates) (session idempotency : Option String) (clientMetadata : Option Value) :
    Option String :=
  (session.map (fun value => "session-header:" ++ value)).or
    ((extractSessionKey crates clientMetadata).or (idempotency.map (fun value => "idempotency:" ++ value)))

/-- The hashes of a request with this provider, session key, idempotency key and encoded body. -/
def identityHashes (crates : Crates) (provider sessionKey : String) (idempotency : Option String)
    (encoded : List UInt8) : String × Option String :=
  let hasher := hashComponent [] "provider" provider
  let hasher := hashComponent hasher "session" sessionKey
  match idempotency with
  | none => (crates.hexDigest (hashBytes hasher (utf8 "request") encoded), none)
  | some key =>
    let hasher := hashComponent hasher "idempotency" key
    let identity := hashComponent hasher "identity" "idempotency-v1"
    (crates.hexDigest (hashBytes hasher (utf8 "request") encoded), some (crates.hexDigest identity))

/-- `NormalizedRequest::from_headers`. -/
def fromHeaders (crates : Crates) (body : Value) (providerNamespace : String) (headers : HeaderMap) :
    Except ProxyError NormalizedRequest := do
  let members ← okOr body.members? (.badRequest notAnObject)
  let requested ← okOr (requestedModel body) (.badRequest "missing model")
  let model := (modelAlias requested).1
  refuse (model = "") "missing model"
  let members := Members.insert "model" (.string model) members
  refuse ((members.get "stream").any (fun value => !value.isBoolean)) "stream must be a boolean"
  refuse ((members.get "store").any (fun value => value ≠ .bool false))
    "batch mode does not support store=true"
  refuse ((members.get "previous_response_id").any (fun value => !value.isNull))
    "batch mode does not support previous_response_id"
  refuse ((members.get "conversation").any (fun value => !value.isNull) ||
      (members.get "background").any (fun value => value ≠ .bool false))
    "batch mode does not support conversation or background=true"
  let session ← identityHeader headers sessionHeader
  let idempotency ← identityHeader headers idempotencyHeader
  let sessionKey ← okOr (sessionKeyOf crates session idempotency (members.get "client_metadata"))
    (.badRequest "batch mode requires Idempotency-Key, X-Kaiion-Session-Id, client_metadata.thread_id or client_metadata.session_id for restart-safe request identity")
  let members := (members.insert "stream" (.bool false)).remove "stream_options"
  let encoded := utf8 (crates.json.print (.object (removeVolatileCodexMetadata members)))
  let provider ← canonicalProviderUrl crates providerNamespace
  let hashes := identityHashes crates provider sessionKey idempotency encoded
  return { batchBody := .object (members.insert "store" (.bool false)), requestHash := hashes.1, model
           asyncAlias := (modelAlias requested).2, idempotencyHash := hashes.2 }

end Kaiion
