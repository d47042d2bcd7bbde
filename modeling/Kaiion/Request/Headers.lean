import Kaiion.Durable.Provider
import Kaiion.Error
import Kaiion.Foundation.Framing
import Kaiion.Text

/-! What the proxy reads from request headers, and the third-party code a request goes through. -/
namespace Kaiion
open Foundation

/-- A parsed URL: `printWith` is its text with another path. -/
structure Url where
  query : Option String
  fragment : Option String
  path : String
  printWith : String → String

/-- Hashing, JSON texts and URLs, as the crates provide them. -/
structure Crates where
  sha256 : List UInt8 → List UInt8
  json : Codec
  parseUrl : String → Except String Url

/-- The bytes of a string. -/
def utf8 (text : String) : List UInt8 := text.toUTF8.data.toList

theorem utf8_injective {s t : String} (h : utf8 s = utf8 t) : s = t :=
  String.toByteArray_inj.mp (ByteArray.ext (Array.toList_inj.mp h))

structure HeaderValue where
  bytes : List UInt8
  deriving DecidableEq

/-- Visible ASCII or a tab. -/
def isVisible (byte : UInt8) : Bool := (32 ≤ byte && byte < 127) || byte = 9

/-- `HeaderValue::to_str`. -/
def HeaderValue.toStr (value : HeaderValue) : Option String :=
  if value.bytes.all isVisible then some (.ofList (value.bytes.map (fun byte => Char.ofNat byte.toNat)))
  else none

/-- The headers of a request by their lower-case names. -/
abbrev HeaderMap := List (String × HeaderValue)

/-- The first header of this name. -/
def HeaderMap.get (headers : HeaderMap) (name : String) : Option HeaderValue := headers.lookup name

def modeHeader : String := "x-kaiion-mode"

def sessionHeader : String := "x-kaiion-session-id"

def idempotencyHeader : String := "idempotency-key"

def optionalHeader (headers : HeaderMap) (name : String) : Except ProxyError (Option String) :=
  match headers.get name with
  | none => .ok none
  | some value =>
    match value.toStr with
    | some text => .ok (some text)
    | none => .error (.badRequest s!"invalid {name} header")

def identityHeader (headers : HeaderMap) (name : String) : Except ProxyError (Option String) := do
  let value ← optionalHeader headers name
  if value.any (fun value => isBlank value || 256 < value.utf8ByteSize) then
    .error (.badRequest s!"{name} must contain 1 to 256 non-blank bytes")
  else return value

inductive Mode where
  | batch
  | direct
  | auto
  deriving DecidableEq, Repr

def resolveMode (crates : Crates) (headers : HeaderMap) (default : Mode) : Except ProxyError Mode :=
  match headers.get modeHeader with
  | none => .ok default
  | some value =>
    match value.toStr.getD "" with
    | "batch" => .ok .batch
    | "direct" => .ok .direct
    | "auto" => .ok .auto
    | value => .error (.badRequest ("invalid " ++ modeHeader ++ " value " ++ crates.json.debugStr value ++
        "; expected batch, direct or auto"))

/-- `hash_bytes`; a hasher is the bytes it was fed. -/
def hashBytes (hasher name value : List UInt8) : List UInt8 :=
  hasher ++ (bigEndian 8 name.length ++ name ++ (bigEndian 8 value.length ++ value))

def hashComponent (hasher : List UInt8) (name value : String) : List UInt8 :=
  hashBytes hasher (utf8 name) (utf8 value)

/-- `hex_digest` of `finalize`. -/
def Crates.hexDigest (crates : Crates) (hasher : List UInt8) : String := hexDigits (crates.sha256 hasher)

/-- No two byte strings with the same digest. -/
def Crates.CollisionFree (crates : Crates) : Prop := ∀ a b, crates.sha256 a = crates.sha256 b → a = b

theorem Crates.CollisionFree.hexDigest_inj {crates : Crates} (h : crates.CollisionFree) {a b : List UInt8}
    (heq : crates.hexDigest a = crates.hexDigest b) : a = b :=
  h a b (hexDigits_injective heq)

/-- A component of a hash. -/
def component (name value : String) : Component := { name := utf8 name, value := utf8 value }

/-- A Rust string is shorter than 2^64 bytes. -/
def FitsLength (text : String) : Prop := text.utf8ByteSize < 2 ^ 64

instance (text : String) : Decidable (FitsLength text) := inferInstanceAs (Decidable (_ < _))

theorem component_fits {name value : String} (hname : FitsLength name) (hvalue : FitsLength value) :
    (component name value).Fits := ⟨hname, hvalue⟩

theorem hashBytes_eq (hasher name value : List UInt8) :
    hashBytes hasher name value = hasher ++ Component.encode { name, value } := rfl

theorem component_inj {name name' value value' : String} (h : component name value = component name' value') :
    name = name' ∧ value = value' :=
  ⟨utf8_injective (Component.mk.inj h).1, utf8_injective (Component.mk.inj h).2⟩

/-- `UpstreamAuth::from_headers`. -/
def Durable.UpstreamAuth.fromHeaders (headers : HeaderMap) : Except ProxyError Durable.UpstreamAuth := do
  let authorization ← okOr ((headers.get "authorization").bind HeaderValue.toStr) .unauthorized
  let organization ← optionalHeader headers "openai-organization"
  let project ← optionalHeader headers "openai-project"
  return { authorization, organization, project }

def Durable.UpstreamAuth.fingerprint (crates : Crates) (auth : Durable.UpstreamAuth) : String :=
  let hasher := hashComponent [] "authorization" auth.authorization
  let hasher := match auth.organization with
    | some organization => hashComponent hasher "organization" organization
    | none => hasher
  let hasher := match auth.project with
    | some project => hashComponent hasher "project" project
    | none => hasher
  crates.hexDigest hasher

end Kaiion
