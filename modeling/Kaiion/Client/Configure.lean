import Kaiion.Json.Edit
import Kaiion.Request.Headers

/-! What `kaiion configure` does to the JSON configuration of OpenCode and Pi. -/
namespace Kaiion.Client

def modeText : Mode → String
  | .batch => "batch"
  | .direct => "direct"
  | .auto => "auto"

structure ConfigureOptions where
  home : String
  proxyUrl : String
  model : String
  directMode : Bool
  clientMode : Option Mode
  sessionId : Option String
  dryRun : Bool

def clientMode (options : ConfigureOptions) : Mode :=
  options.clientMode.getD (if options.directMode then .direct else .batch)

/-- The files of the host, by path. -/
abbrev Files := String → Option String

def Files.write (files : Files) (path content : String) : Files :=
  fun other => if other = path then some content else files other

/-- What the host reports when a call of one run fails. -/
structure Faults where
  read : Option String := none
  createDirectory : Option String := none
  write : Option String := none

/-- `serde_json::from_str`, `json5::from_str` and `serde_json::to_string_pretty`. -/
structure Tools where
  parse : String → Except String Value
  parseJson5 : String → Except String Value
  pretty : Value → Except String String

/-- `Path::join`, for a relative path. -/
def join (base path : String) : String :=
  if base = "" ∨ base.toList.getLast? = some '/' then base ++ path else base ++ "/" ++ path

def readJson (tools : Tools) (faults : Faults) (files : Files) (path : String) : Except String Value :=
  match files path with
  | none => .ok (.object [])
  | some content =>
    match faults.read with
    | some error => .error ("could not read JSON config: " ++ error)
    | none =>
      match tools.parse content with
      | .ok value => .ok value
      | .error jsonError =>
        match tools.parseJson5 content with
        | .ok value => .ok value
        | .error json5Error =>
          .error s!"could not parse JSON config {path}: {jsonError}; JSON5 parser: {json5Error}"

/-- The file is replaced in one step; a failed write leaves it as it was. -/
def writeText (faults : Faults) (files : Files) (path content : String) (dryRun : Bool) :
    Files × Except String Unit :=
  if dryRun then (files, .ok ())
  else
    match faults.createDirectory, faults.write with
    | some error, _ => (files, .error ("could not create configuration directory: " ++ error))
    | none, some error => (files, .error ("could not write configuration: " ++ error))
    | none, none => (files.write path content, .ok ())

def writeJson (tools : Tools) (faults : Faults) (files : Files) (path : String) (document : Value)
    (dryRun : Bool) : Files × Except String Unit :=
  match tools.pretty document with
  | .ok content => writeText faults files path (content ++ "\n") dryRun
  | .error error => (files, .error s!"could not serialize {path}: {error}")

/-- `as_object_mut().ok_or_else(..)`. -/
def asObject (error : String) : Value → Except String Members
  | .object members => .ok members
  | _ => .error error

/-- `entry(key).or_insert_with(|| json!(an empty object))`, as an object. -/
def entryObject (members : Members) (key error : String) : Except String Members :=
  asObject error ((members.get key).getD (.object []))

/-- `entry(key).or_insert_with(|| json!([]))`, as an array. -/
def entryArray (members : Members) (key error : String) : Except String (List Value) :=
  match (members.get key).getD (.array []) with
  | .array items => .ok items
  | _ => .error error

/-- The headers both clients are told to send. -/
def configureHeaders (options : ConfigureOptions) (headers : Members) : Members :=
  let headers := headers.insert "x-kaiion-mode" (.string (modeText (clientMode options)))
  match options.sessionId with
  | some session => headers.insert "x-kaiion-session-id" (.string session)
  | none => headers

/-- The edit of `configure_opencode`. -/
def opencodeDocument (options : ConfigureOptions) (path : String) (document : Value) : Except String Value := do
  let root ← asObject s!"OpenCode config {path} must contain an object" document
  let provider ← entryObject root "provider" "OpenCode provider must be an object"
  let kaiion ← entryObject provider "kaiion" "OpenCode kaiion provider must be an object"
  let kaiion := kaiion.insert "npm" (.string "@ai-sdk/openai")
  let kaiion := kaiion.insert "name" (.string "Kaiion")
  let providerOptions ← entryObject kaiion "options" "OpenCode kaiion options must be an object"
  let providerOptions := providerOptions.insert "baseURL" (.string options.proxyUrl)
  let providerOptions := providerOptions.insert "apiKey" (.string "\x7benv:OPENAI_API_KEY\x7d")
  let headers ← entryObject providerOptions "headers" "OpenCode kaiion headers must be an object"
  let providerOptions := providerOptions.insert "headers" (.object (configureHeaders options headers))
  let kaiion := kaiion.insert "options" (.object providerOptions)
  let models ← entryObject kaiion "models" "OpenCode kaiion models must be an object"
  let models := models.orInsert options.model (.object [("name", .string options.model)])
  let kaiion := kaiion.insert "models" (.object models)
  let provider := provider.insert "kaiion" (.object kaiion)
  let root := root.insert "provider" (.object provider)
  return .object (root.insert "model" (.string ("kaiion/" ++ options.model)))

/-- An entry of Pi's list of models is for this model. -/
def isModel (model : String) (entry : Value) : Bool := (entry.get "id").bind Value.asStr = some model

/-- `model["name"] = json!(..)`, of an entry with an id. -/
def nameModel (model : String) : Value → Value
  | .object members => .object (Members.insert "name" (.string model) members)
  | other => other

/-- The edit of `configure_pi`. -/
def piDocument (options : ConfigureOptions) (path : String) (document : Value) : Except String Value := do
  let root ← asObject s!"Pi config {path} must contain an object" document
  let providers ← entryObject root "providers" "Pi providers must be an object"
  let provider ← entryObject providers "kaiion" "Pi kaiion provider must be an object"
  let provider := provider.insert "baseUrl" (.string options.proxyUrl)
  let provider := provider.insert "api" (.string "openai-responses")
  let provider := provider.insert "apiKey" (.string "$OPENAI_API_KEY")
  let models ← entryArray provider "models" "Pi kaiion models must be an array"
  let models := upsert (isModel options.model) (nameModel options.model)
    (.object [("id", .string options.model), ("name", .string options.model)]) models
  let provider := provider.insert "models" (.array models)
  let headers ← entryObject provider "headers" "Pi kaiion headers must be an object"
  let provider := provider.insert "headers" (.object (configureHeaders options headers))
  let providers := providers.insert "kaiion" (.object provider)
  return .object (root.insert "providers" (.object providers))

/-- Read the document at `path`, edit it and write it back. -/
def configureDocument (tools : Tools) (faults : Faults) (dryRun : Bool) (path : String)
    (edit : Value → Except String Value) (files : Files) : Files × Except String Unit :=
  match readJson tools faults files path with
  | .error error => (files, .error error)
  | .ok document =>
    match edit document with
    | .error error => (files, .error error)
    | .ok document => writeJson tools faults files path document dryRun

def opencodePath (options : ConfigureOptions) (files : Files) : String :=
  let jsonPath := join options.home ".config/opencode/opencode.json"
  let jsoncPath := join options.home ".config/opencode/opencode.jsonc"
  if (files jsonPath).isSome then jsonPath
  else if (files jsoncPath).isSome then jsoncPath
  else jsonPath

def configureOpencode (tools : Tools) (options : ConfigureOptions) (faults : Faults) (files : Files) :
    Files × Except String Unit :=
  let path := opencodePath options files
  configureDocument tools faults options.dryRun path (opencodeDocument options path) files

def piPath (options : ConfigureOptions) : String := join options.home ".pi/agent/models.json"

def configurePi (tools : Tools) (options : ConfigureOptions) (faults : Faults) (files : Files) :
    Files × Except String Unit :=
  configureDocument tools faults options.dryRun (piPath options) (piDocument options (piPath options)) files

end Kaiion.Client
