import Kaiion.Json.Print
import Kaiion.Request.Compatibility
import Mathlib.Data.List.Nodup

/-! The durable identity of a request: what its hashes depend on, and nothing else. -/
namespace Kaiion
open Durable Foundation

/-- A model name without one wait-tolerant prefix. -/
def withoutAlias (model : String) : String :=
  if "async-".toList <+: model.toList then .ofList (model.toList.drop 6) else model

/-- The members without a wait-tolerant alias. -/
def removeModelPrefix (members : Members) : Members :=
  match members.get "model" with
  | some (.string model) => members.insert "model" (.string (withoutAlias model))
  | _ => members

/-- The client's metadata as far as they identify a request: not its window, and not its turn's report. -/
def identityMetadata : Value → Value
  | .object metadata => .object (metadata.filter fun member =>
      member.1 ∉ ["x-codex-window-id", "x-codex-turn-metadata"])
  | value => value

def identityMember (member : String × Value) : String × Value :=
  (member.1, if member.1 = "client_metadata" then identityMetadata member.2 else member.2)

/-- The body as far as it identifies a request: the provider's model name, never streaming, and no
stream options or volatile client metadata. -/
def identityBody : Value → Value
  | .object members => .object
      ((((removeModelPrefix members).insert "stream" (.bool false)).filter
        fun member => member.1 ≠ "stream_options").map identityMember)
  | value => value

theorem fst_modelAlias (model : String) : (modelAlias model).1 = withoutAlias model := by
  unfold modelAlias withoutAlias
  cases h : "async-".toList.isPrefixOf? model.toList with
  | none =>
    have hno : ¬ "async-".toList <+: model.toList := by
      rw [← List.isPrefixOf_iff_prefix, ← List.isSome_isPrefixOf?_eq_isPrefixOf, h]
      simp
    rw [if_neg hno]
  | some rest =>
    have happend : "async-".toList ++ rest = model.toList := List.isPrefixOf?_eq_some_iff_append_eq.mp h
    rw [if_pos ⟨rest, happend⟩, ← happend]
    rfl

/-- What normalization removes from the client's metadata does not identify a request. -/
theorem removeVolatileCodexMetadata_eq (members : Members) :
    removeVolatileCodexMetadata members = members.map identityMember := by
  unfold removeVolatileCodexMetadata Members.update
  refine List.map_congr_left fun member _ => ?_
  obtain ⟨key, value⟩ := member
  by_cases hkey : key = "client_metadata"
  · cases value <;> simp [identityMember, identityMetadata, hkey, Members.remove, List.filter_filter, and_comm]
  · simp [identityMember, hkey]

theorem removeModelPrefix_eq {members : Members} {requested : String}
    (h : requestedModel (.object members) = some requested) :
    removeModelPrefix members = members.insert "model" (.string (modelAlias requested).1) := by
  have hmodel : Members.get members "model" = some (.string requested) := by
    obtain ⟨value, hvalue, hstring⟩ := Option.bind_eq_some_iff.mp (Option.filter_eq_some_iff.mp h).1
    cases value with
    | string model => cases Option.some.inj hstring; exact hvalue
    | _ => cases hstring
  rw [removeModelPrefix, hmodel, fst_modelAlias]

/-- The session key of a request's durable identity. -/
def durableSessionKey (crates : Crates) (body : Value) (headers : HeaderMap) :
    Except ProxyError (Option String) := do
  let session ← identityHeader headers sessionHeader
  let idempotency ← identityHeader headers idempotencyHeader
  return sessionKeyOf crates session idempotency (body.get "client_metadata")

/-- The strings that identify the request are strings a program can hold. -/
structure FitsMemory (crates : Crates) (body : Value) (providerNamespace : String) (headers : HeaderMap) :
    Prop where
  provider : ∀ provider, canonicalProviderUrl crates providerNamespace = .ok provider → FitsLength provider
  sessionKey : ∀ key, durableSessionKey crates body headers = .ok (some key) → FitsLength key
  encoded : FitsLength (crates.json.print (identityBody body))

/-- What scopes an idempotency key. -/
def scopeComponents (provider sessionKey : String) (idempotency : Option String) : List Component :=
  component "provider" provider :: component "session" sessionKey ::
    idempotency.toList.map (component "idempotency")

theorem fst_identityHashes (crates : Crates) (provider sessionKey : String) (idempotency : Option String)
    (text : String) : (identityHashes crates provider sessionKey idempotency (utf8 text)).1 =
      crates.hexDigest (encodeAll (scopeComponents provider sessionKey idempotency ++
        [component "request" text])) := by
  cases idempotency <;>
    simp [identityHashes, scopeComponents, hashComponent, hashBytes_eq, encodeAll, component]

theorem snd_identityHashes (crates : Crates) (provider sessionKey : String) (idempotency : Option String)
    (encoded : List UInt8) : (identityHashes crates provider sessionKey idempotency encoded).2 =
      idempotency.map fun key => crates.hexDigest (encodeAll (scopeComponents provider sessionKey (some key) ++
        [component "identity" "idempotency-v1"])) := by
  cases idempotency <;>
    simp [identityHashes, scopeComponents, hashComponent, hashBytes_eq, encodeAll, component]

private theorem scopeComponents_append_inj {provider provider' sessionKey sessionKey' : String}
    {idempotency idempotency' : Option String} {name name' value value' : String}
    (h : scopeComponents provider sessionKey idempotency ++ [component name value] =
      scopeComponents provider' sessionKey' idempotency' ++ [component name' value']) :
    provider = provider' ∧ sessionKey = sessionKey' ∧ idempotency = idempotency' ∧ name = name' ∧ value = value' := by
  obtain ⟨hscope, hlast⟩ := List.append_inj' h rfl
  obtain ⟨hname, hvalue⟩ := component_inj (List.cons.inj hlast).1
  obtain ⟨hprovider, hrest⟩ := List.cons.inj hscope
  obtain ⟨hsession, hkeys⟩ := List.cons.inj hrest
  refine ⟨(component_inj hprovider).2, (component_inj hsession).2, ?_, hname, hvalue⟩
  cases idempotency <;> cases idempotency' <;> simp at hkeys
  · rfl
  · exact congrArg some (component_inj hkeys).2

/-- Every component of a scope fits when its parts do. -/
private theorem scopeComponents_fits {provider sessionKey name value : String} {idempotency : Option String}
    (hprovider : FitsLength provider) (hsession : FitsLength sessionKey)
    (hkey : ∀ key, idempotency = some key → FitsLength key) (hname : FitsLength name) (hvalue : FitsLength value) :
    ∀ c ∈ scopeComponents provider sessionKey idempotency ++ [component name value], c.Fits := by
  intro c hc
  rcases List.mem_append.mp hc with hc | hc
  · rcases List.mem_cons.mp hc with rfl | hc
    · exact component_fits (by decide) hprovider
    · rcases List.mem_cons.mp hc with rfl | hc
      · exact component_fits (by decide) hsession
      · obtain ⟨key, hsome, rfl⟩ := List.mem_map.mp hc
        exact component_fits (by decide) (hkey key (Option.mem_toList.mp hsome))
  · rw [List.mem_singleton.mp hc]
    exact component_fits hname hvalue

private theorem identityHeader_fits {headers : HeaderMap} {name value : String}
    (h : identityHeader headers name = .ok (some value)) : FitsLength value := by
  obtain ⟨found, -, hrest⟩ := bind_ok h
  cases hcond : found.any (fun value => isBlank value || decide (256 < value.utf8ByteSize)) with
  | true => rw [hcond] at hrest; cases hrest
  | false =>
    rw [hcond] at hrest
    cases Except.ok.inj hrest
    have hsize : isBlank value = false ∧ value.utf8ByteSize ≤ 256 := by simpa using hcond
    unfold FitsLength
    omega

theorem Reading.Of.hashedBody_eq {crates : Crates} {body : Value} {providerNamespace : String}
    {headers : HeaderMap} {r : Reading} (h : r.Of crates body providerNamespace headers) :
    r.hashedBody = identityBody body := by
  obtain ⟨hobject, hrequested⟩ := h
  subst hobject
  rw [Reading.hashedBody, Reading.batchMembers, removeVolatileCodexMetadata_eq, Reading.model,
    ← removeModelPrefix_eq hrequested]
  rfl

theorem Reading.Of.durableSessionKey_eq {crates : Crates} {body : Value} {providerNamespace : String}
    {headers : HeaderMap} {r : Reading} (h : r.Of crates body providerNamespace headers) :
    durableSessionKey crates body headers = .ok (some r.sessionKey) := by
  simp only [durableSessionKey, h.session, h.idempotency, bind, Except.bind, h.sessionKey]
  rfl

theorem Reading.Of.idempotency_fits {crates : Crates} {body : Value} {providerNamespace : String}
    {headers : HeaderMap} {r : Reading} (h : r.Of crates body providerNamespace headers) (key : String)
    (hkey : r.idempotency = some key) : FitsLength key :=
  identityHeader_fits (hkey ▸ h.idempotency)

theorem Reading.requestHash_eq {crates : Crates} (r : Reading) : (r.request crates).requestHash =
    crates.hexDigest (encodeAll (scopeComponents r.provider r.sessionKey r.idempotency ++
      [component "request" (crates.json.print r.hashedBody)])) :=
  fst_identityHashes crates r.provider r.sessionKey r.idempotency (crates.json.print r.hashedBody)

/-- The hash of an idempotency key is one of the scope and the key. -/
theorem Reading.idempotencyHash_map {crates : Crates} (r : Reading) : (r.request crates).idempotencyHash =
    r.idempotency.map fun key => crates.hexDigest (encodeAll (scopeComponents r.provider r.sessionKey (some key) ++
      [component "identity" "idempotency-v1"])) :=
  snd_identityHashes crates r.provider r.sessionKey r.idempotency (utf8 (crates.json.print r.hashedBody))

theorem Reading.idempotencyHash_eq {crates : Crates} (r : Reading) {hash : String}
    (h : (r.request crates).idempotencyHash = some hash) :
    hash = crates.hexDigest (encodeAll (scopeComponents r.provider r.sessionKey r.idempotency ++
      [component "identity" "idempotency-v1"])) := by
  rw [r.idempotencyHash_map] at h
  obtain ⟨key, hkey, rfl⟩ := Option.map_eq_some_iff.mp h
  rw [hkey]

/-- Two scopes with a last component have one hash only if all their parts agree. -/
private theorem scoped_digest_inj {crates : Crates} (hfree : crates.CollisionFree) {body body' : Value}
    {providerNamespace providerNamespace' : String} {headers headers' : HeaderMap} {r s : Reading}
    (hr : r.Of crates body providerNamespace headers) (hs : s.Of crates body' providerNamespace' headers')
    (hfits : FitsMemory crates body providerNamespace headers)
    (hfits' : FitsMemory crates body' providerNamespace' headers') {name name' value value' : String}
    (hname : FitsLength name) (hvalue : FitsLength value) (hname' : FitsLength name') (hvalue' : FitsLength value')
    (h : crates.hexDigest (encodeAll (scopeComponents r.provider r.sessionKey r.idempotency ++ [component name value])) =
      crates.hexDigest (encodeAll (scopeComponents s.provider s.sessionKey s.idempotency ++
        [component name' value']))) :
    r.provider = s.provider ∧ r.sessionKey = s.sessionKey ∧ r.idempotency = s.idempotency ∧ name = name' ∧
      value = value' :=
  scopeComponents_append_inj (encodeAll_inj
    (scopeComponents_fits (hfits.provider _ hr.provider) (hfits.sessionKey _ hr.durableSessionKey_eq)
      hr.idempotency_fits hname hvalue)
    (scopeComponents_fits (hfits'.provider _ hs.provider) (hfits'.sessionKey _ hs.durableSessionKey_eq)
      hs.idempotency_fits hname' hvalue') (hfree.hexDigest_inj h))

/-- Requests with one `idempotency_hash` agree on all that scopes it. -/
theorem idempotency_scope_inj {crates : Crates} (hfree : crates.CollisionFree) {body body' : Value}
    {providerNamespace providerNamespace' : String} {headers headers' : HeaderMap} {r s : Reading}
    (hr : r.Of crates body providerNamespace headers) (hs : s.Of crates body' providerNamespace' headers')
    (hfits : FitsMemory crates body providerNamespace headers)
    (hfits' : FitsMemory crates body' providerNamespace' headers') {hash : String}
    (ha : (r.request crates).idempotencyHash = some hash) (hb : (s.request crates).idempotencyHash = some hash) :
    r.provider = s.provider ∧ r.sessionKey = s.sessionKey ∧ r.idempotency = s.idempotency := by
  have h := (r.idempotencyHash_eq ha).symm.trans (s.idempotencyHash_eq hb)
  obtain ⟨hprovider, hsession, hkey, -⟩ :=
    scoped_digest_inj hfree hr hs hfits hfits' (by decide) (by decide) (by decide) (by decide) h
  exact ⟨hprovider, hsession, hkey⟩

/-- Requests with one `request_hash` agree on all that scopes their keys, and on their encoded bodies. -/
theorem request_scope_inj {crates : Crates} (hfree : crates.CollisionFree) {body body' : Value}
    {providerNamespace providerNamespace' : String} {headers headers' : HeaderMap} {r s : Reading}
    (hr : r.Of crates body providerNamespace headers) (hs : s.Of crates body' providerNamespace' headers')
    (hfits : FitsMemory crates body providerNamespace headers)
    (hfits' : FitsMemory crates body' providerNamespace' headers')
    (h : (r.request crates).requestHash = (s.request crates).requestHash) :
    r.provider = s.provider ∧ r.sessionKey = s.sessionKey ∧ r.idempotency = s.idempotency ∧
      crates.json.print r.hashedBody = crates.json.print s.hashedBody := by
  have hencoded : FitsLength (crates.json.print r.hashedBody) := by
    rw [hr.hashedBody_eq]
    exact hfits.encoded
  have hencoded' : FitsLength (crates.json.print s.hashedBody) := by
    rw [hs.hashedBody_eq]
    exact hfits'.encoded
  rw [r.requestHash_eq, s.requestHash_eq] at h
  obtain ⟨hprovider, hsession, hkey, -, htext⟩ :=
    scoped_digest_inj hfree hr hs hfits hfits' (by decide) hencoded (by decide) hencoded' h
  exact ⟨hprovider, hsession, hkey, htext⟩

/-- Requests have one `request_hash` exactly when they agree on provider, session, idempotency key and
identity body, one `idempotency_hash` exactly when they agree on the first three, and the two kinds of
hashes never meet. -/
theorem durable_identity_exact {crates : Crates} (hfree : crates.CollisionFree)
    (hprint : Function.Injective crates.json.print) {body body' : Value}
    {providerNamespace providerNamespace' : String} {headers headers' : HeaderMap} {a b : NormalizedRequest}
    (ha : fromHeaders crates body providerNamespace headers = .ok a)
    (hb : fromHeaders crates body' providerNamespace' headers' = .ok b)
    (hfits : FitsMemory crates body providerNamespace headers)
    (hfits' : FitsMemory crates body' providerNamespace' headers') :
    (a.requestHash = b.requestHash ↔
      canonicalProviderUrl crates providerNamespace = canonicalProviderUrl crates providerNamespace' ∧
      durableSessionKey crates body headers = durableSessionKey crates body' headers' ∧
      identityHeader headers idempotencyHeader = identityHeader headers' idempotencyHeader ∧
      identityBody body = identityBody body') ∧
    (∀ x y, a.idempotencyHash = some x → b.idempotencyHash = some y → (x = y ↔
      canonicalProviderUrl crates providerNamespace = canonicalProviderUrl crates providerNamespace' ∧
      durableSessionKey crates body headers = durableSessionKey crates body' headers' ∧
      identityHeader headers idempotencyHeader = identityHeader headers' idempotencyHeader)) ∧
    (∀ x, a.idempotencyHash = some x → x ≠ b.requestHash) := by
  obtain ⟨r, hr, rfl⟩ := fromHeaders_ok_iff.mp ha
  obtain ⟨s, hs, rfl⟩ := fromHeaders_ok_iff.mp hb
  rw [hr.provider, hs.provider, hr.durableSessionKey_eq, hs.durableSessionKey_eq, hr.idempotency, hs.idempotency,
    ← hr.hashedBody_eq, ← hs.hashedBody_eq]
  have hencoded' : FitsLength (crates.json.print s.hashedBody) := by rw [hs.hashedBody_eq]; exact hfits'.encoded
  refine ⟨⟨fun h => ?_, fun ⟨hprovider, hsession, hkey, hbody⟩ => ?_⟩, fun x y hx hy => ⟨fun h => ?_,
    fun ⟨hprovider, hsession, hkey⟩ => ?_⟩, fun x hx h => ?_⟩
  · obtain ⟨hprovider, hsession, hkey, htext⟩ := request_scope_inj hfree hr hs hfits hfits' h
    rw [hprovider, hsession, hkey, hprint htext]
    exact ⟨rfl, rfl, rfl, rfl⟩
  · rw [r.requestHash_eq, s.requestHash_eq, Except.ok.inj hprovider,
      Option.some.inj (Except.ok.inj hsession), Except.ok.inj hkey, hbody]
  · obtain ⟨hprovider, hsession, hkey⟩ := idempotency_scope_inj hfree hr hs hfits hfits' hx (h ▸ hy)
    rw [hprovider, hsession, hkey]
    exact ⟨rfl, rfl, rfl⟩
  · rw [r.idempotencyHash_eq hx, s.idempotencyHash_eq hy, Except.ok.inj hprovider, Option.some.inj (Except.ok.inj hsession),
      Except.ok.inj hkey]
  · rw [r.idempotencyHash_eq hx, s.requestHash_eq] at h
    obtain ⟨-, -, -, hname, -⟩ :=
      scoped_digest_inj hfree hr hs hfits hfits' (by decide) (by decide) (by decide) hencoded' h
    exact absurd hname (by decide)

section Witness

/-- A digest that answers like SHA-256 on the listed texts and collides nowhere. -/
def listedDigest (listed : List (List Component × List UInt8)) (bytes : List UInt8) : List UInt8 :=
  ((listed.map (fun entry => (encodeAll entry.1, entry.2))).lookup bytes).getD (List.replicate 33 0 ++ bytes)

/-- The crates on one provider, with these digests. -/
noncomputable def listedCrates (listed : List (List Component × List UInt8)) : Crates where
  sha256 := listedDigest listed
  json := Json.compact
  parseUrl text := if text = "https://api.openai.com/v1" then
      .ok { query := none, fragment := none, path := "/v1", printWith := fun path => "https://api.openai.com" ++ path }
    else .error "relative URL without a base"

private theorem mem_of_lookup {table : List (List UInt8 × List UInt8)} {bytes digest : List UInt8}
    (h : table.lookup bytes = some digest) : (bytes, digest) ∈ table := by
  induction table with
  | nil => cases h
  | cons entry rest ih =>
    rw [List.lookup_cons] at h
    split at h
    next heq =>
      rw [eq_of_beq heq, ← Option.some.inj h]
      exact List.mem_cons_self
    · exact List.mem_cons_of_mem _ (ih h)

theorem listedCrates_collisionFree {listed : List (List Component × List UInt8)}
    (hdistinct : (listed.map Prod.snd).Nodup) (hlength : ∀ entry ∈ listed, entry.2.length = 32) :
    (listedCrates listed).CollisionFree := by
  intro a b h
  have short {bytes digest : List UInt8}
      (hfound : (listed.map (fun entry => (encodeAll entry.1, entry.2))).lookup bytes = some digest) :
      ∃ entry ∈ listed, encodeAll entry.1 = bytes ∧ entry.2 = digest := by
    obtain ⟨entry, hentry, heq⟩ := List.mem_map.mp (mem_of_lookup hfound)
    exact ⟨entry, hentry, (Prod.mk.inj heq).1, (Prod.mk.inj heq).2⟩
  simp only [listedCrates, listedDigest] at h
  cases ha : (listed.map (fun entry => (encodeAll entry.1, entry.2))).lookup a with
  | none =>
    cases hb : (listed.map (fun entry => (encodeAll entry.1, entry.2))).lookup b with
    | none =>
      rw [ha, hb] at h
      exact List.append_cancel_left h
    | some digest =>
      obtain ⟨entry, hentry, -, rfl⟩ := short hb
      rw [ha, hb] at h
      exact absurd (congrArg List.length h) (by simp [hlength entry hentry])
  | some digest =>
    obtain ⟨entry, hentry, rfl, rfl⟩ := short ha
    cases hb : (listed.map (fun entry => (encodeAll entry.1, entry.2))).lookup b with
    | none =>
      rw [ha, hb] at h
      exact absurd (congrArg List.length h) (by simp [hlength entry hentry])
    | some digest' =>
      obtain ⟨entry', hentry', rfl, rfl⟩ := short hb
      rw [ha, hb] at h
      rw [List.inj_on_of_nodup_map hdistinct hentry hentry' h]

private def keyed : HeaderMap := [("authorization", ⟨utf8 "Bearer a"⟩), ("idempotency-key", ⟨utf8 "k1"⟩)]

private def keyedScope : List Component := scopeComponents "https://api.openai.com/v1" "idempotency:k1" (some "k1")

/-- The crates on one provider, with the digests of a few requests. -/
noncomputable def sampleCrates : Crates := listedCrates
  [(keyedScope ++ [component "request" "\x7b\"input\":\"hi\",\"model\":\"gpt-5\",\"stream\":false\x7d"],
    [50, 254, 86, 186, 29, 114, 238, 20, 146, 194, 33, 253, 130, 99, 102, 45, 126, 50, 126, 255, 15, 96, 217, 196,
      170, 248, 91, 243, 187, 13, 193, 62]),
   (keyedScope ++ [component "identity" "idempotency-v1"],
    [194, 152, 244, 218, 119, 194, 119, 53, 91, 162, 65, 188, 253, 254, 21, 70, 199, 179, 14, 61, 30, 74, 182, 88,
      136, 216, 210, 123, 152, 195, 95, 195]),
   ([component "authorization" "Bearer a"],
    [183, 5, 52, 124, 177, 229, 235, 46, 73, 105, 45, 202, 177, 228, 187, 221, 73, 157, 153, 128, 174,
      212, 230, 177, 234, 58, 174, 116, 8, 51, 92, 16]),
   ([component "authorization" "Bearer b"],
    [136, 111, 90, 161, 180, 33, 189, 179, 171, 160, 123, 158, 189, 212, 114, 168, 228, 110, 15, 99, 101,
      26, 28, 30, 85, 60, 119, 210, 1, 40, 129, 170]),
   ([component "scheduler-session" "s1"],
    [146, 0, 54, 0, 231, 118, 154, 144, 254, 35, 19, 121, 130, 15, 150, 207, 100, 201, 30, 44, 97,
      164, 112, 59, 184, 69, 105, 50, 175, 235, 218, 195])]

theorem sampleCrates_collisionFree : sampleCrates.CollisionFree :=
  listedCrates_collisionFree (by decide) (by decide)

/-- Client metadata of one window and one turn. -/
private def metadata (originator window turn : String) : Value :=
  .object [("originator", .string originator), ("x-codex-turn-metadata", .string turn),
    ("x-codex-window-id", .string window)]

private def aliased : Value :=
  .object [("client_metadata", metadata "codex" "w1" "t1"), ("input", .string "hi"), ("model", .string "async-gpt-5"),
    ("stream", .bool true), ("stream_options", .object [("include_usage", .bool true)])]

private def plain (originator : String) : Value :=
  .object [("client_metadata", metadata originator "w2" "t2"), ("input", .string "hi"), ("model", .string "gpt-5")]

private def keyedReading (members : Members) (requested : String) : Reading :=
  ⟨members, requested, none, some "k1", "idempotency:k1", "https://api.openai.com/v1"⟩

private theorem keyed_fits (body : Value) (hmetadata : extractSessionKey sampleCrates (body.get "client_metadata") = none)
    (hencoded : FitsLength (sampleCrates.json.print (identityBody body))) :
    FitsMemory sampleCrates body "https://api.openai.com/v1" keyed where
  provider provider h := by
    cases (show Except.ok "https://api.openai.com/v1" = Except.ok provider from h)
    decide
  sessionKey key h := by
    unfold durableSessionKey sessionKeyOf at h
    rw [hmetadata] at h
    cases (show Except.ok (some "idempotency:k1") = Except.ok (some key) from h)
    decide
  encoded := hencoded

/-- A streamed request for the wait-tolerant alias, from another window and turn, is the same durable request; one
with other metadata is another request under the same key. -/
theorem durable_identity_exact_alias : ∃ a b c,
    fromHeaders sampleCrates aliased "https://api.openai.com/v1" keyed = .ok a ∧
      fromHeaders sampleCrates (plain "codex") "https://api.openai.com/v1" keyed = .ok b ∧
      fromHeaders sampleCrates (plain "shell") "https://api.openai.com/v1" keyed = .ok c ∧
      a.requestHash = b.requestHash ∧ a.requestHash ≠ c.requestHash ∧ a.idempotencyHash = c.idempotencyHash := by
  have accepted (body : Value) (requested : String) {members : Members}
      (h : (keyedReading members requested).Of sampleCrates body "https://api.openai.com/v1" keyed) :=
    fromHeaders_ok_iff.mpr ⟨_, h, rfl⟩
  have ha := accepted aliased "async-gpt-5"
    ⟨rfl, by decide, by decide, by decide, by decide, by decide, rfl, rfl⟩
  have hb := accepted (plain "codex") "gpt-5"
    ⟨rfl, by decide, by decide, by decide, by decide, by decide, rfl, rfl⟩
  have hc := accepted (plain "shell") "gpt-5"
    ⟨rfl, by decide, by decide, by decide, by decide, by decide, rfl, rfl⟩
  have hprint : Function.Injective sampleCrates.json.print := fun _ _ h => Json.print_injective Json.pointed_prints h
  have haliased := keyed_fits aliased rfl (by decide)
  obtain ⟨hsame, -, -⟩ := durable_identity_exact sampleCrates_collisionFree hprint ha hb haliased
    (keyed_fits (plain "codex") rfl (by decide))
  obtain ⟨hother, hkeys, -⟩ := durable_identity_exact sampleCrates_collisionFree hprint ha hc haliased
    (keyed_fits (plain "shell") rfl (by decide))
  refine ⟨_, _, _, ha, hb, hc, hsame.mpr ⟨rfl, rfl, rfl, by decide⟩, fun h => ?_, ?_⟩
  · exact absurd (hother.mp h).2.2.2 (by decide)
  · exact congrArg some ((hkeys _ _ rfl rfl).mpr ⟨rfl, rfl, rfl⟩)

end Witness
end Kaiion
