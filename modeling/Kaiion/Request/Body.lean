import Kaiion.Json.Object
import Kaiion.Request.Headers

/-! What the proxy reads from the body of a Responses request. -/
namespace Kaiion

/-- The provider's model name, and whether the caller used the wait-tolerant alias. -/
def modelAlias (model : String) : String × Bool :=
  match "async-".toList.isPrefixOf? model.toList with
  | some rest => (.ofList rest, true)
  | none => (model, false)

/-- A non-empty `model` field. -/
def requestedModel (body : Value) : Option String :=
  ((body.get "model").bind Value.asStr).filter (fun model => model ≠ "")

/-- A non-blank string field. -/
def nonBlank (value : Option Value) : Option String :=
  (value.bind Value.asStr).filter (fun text => !isBlank text)

/-- `extract_thread_id`. -/
def extractThreadId (clientMetadata : Option Value) : Option String :=
  (clientMetadata.bind Value.members?).bind fun metadata =>
    (nonBlank (metadata.get "thread_id")).or (nonBlank (metadata.get "session_id"))

/-- `extract_session_key`. -/
def extractSessionKey (crates : Crates) (clientMetadata : Option Value) : Option String :=
  (clientMetadata.bind Value.members?).bind fun metadata =>
    ((nonBlank (metadata.get "thread_id")).or (nonBlank (metadata.get "session_id"))).map fun thread =>
      let turn := ((metadata.get "turn_id").bind Value.asStr).getD "-"
      crates.hexDigest (utf8 thread ++ [0] ++ utf8 turn)

/-- Whether an auto request can be represented by the durable Batch path. -/
def batchSupported (crates : Crates) (body : Value) (headers : HeaderMap) : Except ProxyError Bool :=
  if !body.isObject then .ok false
  else
    match requestedModel body with
    | none => .ok false
    | some requested =>
      if (modelAlias requested).1 = "" ||
          (body.get "stream").any (fun value => !value.isBoolean) ||
          (body.get "store").any (fun value => value ≠ .bool false) ||
          (body.get "previous_response_id").any (fun value => !value.isNull) ||
          (body.get "conversation").any (fun value => !value.isNull) ||
          (body.get "background").any (fun value => value ≠ .bool false) then .ok false
      else do
        let session ← identityHeader headers sessionHeader
        let idempotency ← identityHeader headers idempotencyHeader
        return session.isSome || (extractSessionKey crates (body.get "client_metadata")).isSome ||
          idempotency.isSome

def notAnObject : String := "Responses request must be a JSON object"

/-- A copy of the request for the provider, without the virtual model prefix. -/
def upstreamBody : Value → Except ProxyError Value
  | .object members =>
    match (Members.get members "model").bind Value.asStr with
    | none => .ok (.object members)
    | some requested =>
      let (model, asyncAlias) := modelAlias requested
      if asyncAlias && model = "" then
        .error (.badRequest "async- model alias must include an upstream model name")
      else .ok (.object (Members.insert "model" (.string model) members))
  | _ => .error (.badRequest notAnObject)

/-- The session key for scheduling, which unlike a request's identity has no turn in it. -/
def schedulingSessionId (crates : Crates) (body : Value) (headers : HeaderMap) :
    Except ProxyError (Option String) := do
  let session ← identityHeader headers sessionHeader
  return (session.or (extractThreadId (body.get "client_metadata"))).map fun value =>
    crates.hexDigest (hashComponent [] "scheduler-session" value)

/-- `estimate_tokens`: one input token for three bytes, and the client's output limit. -/
def estimateTokens (crates : Crates) (body : Value) : Nat × Nat :=
  let bytes := ((["instructions", "input", "tools", "text"].filterMap body.get).map
    (fun value => (crates.json.print value).utf8ByteSize)).sum
  (min ((bytes + 2) / 3 + 32) (2 ^ 64 - 1), ((body.get "max_output_tokens").bind Value.asU64).getD 0)

mutual
def containsItemType (accepted : List String) : Value → Bool
  | .array items => anyItemType accepted items
  | .object members => (((Members.get members "type").bind Value.asStr).any fun kind => accepted.contains kind) ||
      anyMemberType accepted members
  | _ => false

def anyItemType (accepted : List String) : List Value → Bool
  | [] => false
  | item :: rest => containsItemType accepted item || anyItemType accepted rest

def anyMemberType (accepted : List String) : List (String × Value) → Bool
  | [] => false
  | (_, value) :: rest => containsItemType accepted value || anyMemberType accepted rest
end

mutual
def containsUserMarker : Value → Bool
  | .array items => anyUserMarker items
  | .object members => (Members.get members "role").bind Value.asStr = some "user" ||
      (Members.get members "type").bind Value.asStr = some "input_text" || contentUserMarker members
  | .string _ => true
  | _ => false

def anyUserMarker : List Value → Bool
  | [] => false
  | item :: rest => containsUserMarker item || anyUserMarker rest

/-- The marker of the `content` member. -/
def contentUserMarker : List (String × Value) → Bool
  | [] => false
  | (key, value) :: rest => if key = "content" then containsUserMarker value else contentUserMarker rest
end

def latestInput (body : Value) : Option Value :=
  match body.get "input" with
  | some (.array items) => items.getLast?
  | value => value

def isToolOutput (body : Value) : Bool :=
  (latestInput body).any (containsItemType ["function_call_output", "tool_result", "tool_output"])

def isUserPrompt (body : Value) : Bool :=
  if isToolOutput body then false
  else if (body.get "input").any (fun value => value.asStr.isSome) then true
  else (latestInput body).any containsUserMarker

/-- The usage a response reports: input tokens, output tokens and whether the cache was read. -/
def responseUsage (value : Value) : Option Nat × Option Nat × Option Bool :=
  let usage := ((value.get "response").bind fun response => response.get "usage").or (value.get "usage")
  match usage with
  | none => (none, none, none)
  | some usage => ((usage.get "input_tokens").bind Value.asU64, (usage.get "output_tokens").bind Value.asU64,
      ((usage.pointer ["input_tokens_details", "cached_tokens"]).bind Value.asU64).map (fun tokens => 0 < tokens))

end Kaiion
