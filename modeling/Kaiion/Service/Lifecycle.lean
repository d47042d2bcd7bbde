import Kaiion.Client.Configure
import Kaiion.Proxy.ScheduledDirect
import Kaiion.Service.AtomicFile

/-! The commands that start, stop, restart and inspect the background service. -/
namespace Kaiion.Service
open Foundation Proxy Scheduling

structure Config where
  /-- A socket address, as it is displayed. -/
  listen : String
  databaseUrl : String
  mode : Mode
  upstreamBaseUrl : String
  pollIntervalSeconds : Nat
  inProgressIntervalSeconds : Nat
  maxBodyBytes : Nat
  routingPolicy : Option String
  schedulingPolicy : Option String
  resumeFromEnv : Bool
  deriving DecidableEq, Repr

/-- The configuration of a command line without options. -/
def Config.defaults (databaseUrl : String) : Config where
  listen := "127.0.0.1:8787"
  databaseUrl
  mode := .batch
  upstreamBaseUrl := "https://api.openai.com/v1"
  pollIntervalSeconds := 5
  inProgressIntervalSeconds := 15
  maxBodyBytes := 67108864
  routingPolicy := none
  schedulingPolicy := none
  resumeFromEnv := false

def Config.toArgs (config : Config) : List String :=
  ["--listen", config.listen, "--database-url", config.databaseUrl, "--mode", Client.modeText config.mode,
    "--upstream-base-url", config.upstreamBaseUrl, "--poll-interval-seconds", toString config.pollIntervalSeconds,
    "--in-progress-interval-seconds", toString config.inProgressIntervalSeconds,
    "--max-body-bytes", toString config.maxBodyBytes] ++
  (match config.routingPolicy with
    | some path => ["--routing-policy", path]
    | none => []) ++
  (match config.schedulingPolicy with
    | some path => ["--scheduling-policy", path]
    | none => []) ++
  if config.resumeFromEnv then ["--resume-from-env"] else []

structure LifecyclePaths where
  configDir : String
  stateDir : String
  pidFile : Path
  logFile : Path
  readyFile : Path
  configFile : Path

structure PersistedState where
  config : Config
  workingDirectory : String
  deriving DecidableEq, Repr

instance : Inhabited PersistedState := ⟨⟨Config.defaults "", ""⟩⟩

/-- The derived serialization of the persisted state, and the text of a JSON document. -/
structure Serde where
  serialize : PersistedState → Except String String
  deserialize : String → Except String PersistedState
  print : Value → String

def ensurePrivateDirectory (directory : String) : Sys (Except IoError Unit) :=
  ExceptT.run (m := Sys) do
    ExceptT.mk (perform (.createDirAll directory))
    ExceptT.mk (perform (.setDirectoryPermissions directory 0o700))

def ensureParent (path : Path) : Command Unit :=
  if path.parent = "" then pure ()
  else attempt "create lifecycle directory" (perform (.createDirAll path.parent))

def validPid (pid : Nat) : Bool := 0 < pid && pid ≤ 2 ^ 31 - 1

/-- The text of a PID file; `parse::<u32>` has a range of its own. -/
def parsePid (text : String) : Option Nat :=
  ((parseU64 (trim text)).filter (fun pid => pid < 2 ^ 32)).filter validPid

def readPid (path : Path) : Command (Option Nat) := do
  match ← ExceptT.lift (perform (.readToString path) : Sys (Except IoError String)) with
  | .ok value =>
    match parsePid value with
    | some pid => return some pid
    | none => throw s!"invalid PID file {path.display}"
  | .error error =>
    if error.notFound then return none
    else throw s!"could not read PID file: {error.message}"

def pidText (pid : Nat) : String := toString pid ++ "\n"

def writePid (path : Path) (pid : Nat) : Command Unit :=
  attempt "write PID file" (AtomicFile.write path (utf8 (pidText pid)))

def remove (action : String) (path : Path) : Command Unit := do
  match ← ExceptT.lift (perform (.removeFile path) : Sys (Except IoError Unit)) with
  | .ok () => return ()
  | .error error =>
    if error.notFound then return ()
    else throw s!"could not {action}: {error.message}"

def removePid (path : Path) : Command Unit := remove "remove PID file" path

def removeIfExists (path : Path) : Command Unit := remove "remove lifecycle file" path

def loadState (serde : Serde) (paths : LifecyclePaths) : Command (Option PersistedState) := do
  match ← ExceptT.lift (perform (.readToString paths.configFile) : Sys (Except IoError String)) with
  | .ok content =>
    match serde.deserialize content with
    | .ok state => return some state
    | .error error => throw s!"could not parse {paths.configFile.display}: {error}"
  | .error error =>
    if error.notFound then return none
    else throw s!"could not read lifecycle configuration: {error.message}"

def writeState (serde : Serde) (paths : LifecyclePaths) (state : PersistedState) : Command Unit :=
  match serde.serialize state with
  | .error error => throw s!"could not serialize lifecycle configuration: {error}"
  | .ok content => attempt "write lifecycle file" (AtomicFile.write paths.configFile (utf8 (content ++ "\n")))

def processAlive (pid : Nat) : Sys Bool := do
  match ← (perform (.kill pid none) : Sys (Except OsError Unit)) with
  | .ok () => return true
  | .error error => return error.errno = .eperm

/-- A process whose executable cannot be read counts as the service's own. -/
def isOwnedProcess (pid : Nat) : Sys Bool := do
  match ← (perform .currentExe : Sys (Except IoError String)) with
  | .error _ => return false
  | .ok executable =>
    match ← (perform (.readLink pid) : Sys (Except IoError String)) with
    | .ok running => return running = executable
    | .error _ => return true

def terminatePid (pid : Nat) (force : Bool) : Sys (Except String Unit) := do
  match ← (perform (.kill pid (some (if force then .kill else .term))) : Sys (Except OsError Unit)) with
  | .ok () => return .ok ()
  | .error error => return if error.errno = .esrch then .ok () else .error error.message

/-- `if process_alive(pid) && !is_owned_process(pid)`. -/
def refuseForeign (paths : LifecyclePaths) (pid : Nat) : Command Unit := do
  if ← ExceptT.lift (processAlive pid) then
    if ← ExceptT.lift (isOwnedProcess pid) then return ()
    else throw s!"PID file {paths.pidFile.display} belongs to another process"
  else return ()

/-- A nap brings the deadline nearer. -/
theorem later_lt {since now woken deadline : Nat} (hnow : since ≤ now) (hlt : now < deadline)
    (hwoken : now + fromMillis 50 ≤ woken) : deadline - woken < deadline - since := by
  unfold fromMillis at hwoken
  omega

/-- `while process_alive(pid) && Instant::now() < deadline`. -/
def awaitExit (pid : Nat) (deadline since : Instant) : Sys Unit := do
  if ← processAlive pid then
    let now : { instant : Instant // since ≤ instant } ← perform (.now since)
    if _h : now.1 < deadline then
      let woken : { instant : Instant // now.1 + fromMillis 50 ≤ instant } ← perform (.sleep now.1 (fromMillis 50))
      awaitExit pid deadline woken.1
    else return ()
  else return ()
termination_by deadline - since
decreasing_by exact later_lt now.2 _h woken.2

/-- `ready_file.exists() && health(listen).await`. -/
def answers (readyFile : Path) (listen : String) : Sys Bool := do
  if ← (perform (.exist readyFile) : Sys Bool) then perform (.health listen)
  else return false

/-- `while Instant::now() < deadline`. -/
def waitForReady (child : Nat) (readyFile : Path) (listen : String) (deadline since : Instant) : Sys Bool := do
  let now : { instant : Instant // since ≤ instant } ← perform (.now since)
  if _h : now.1 < deadline then
    let exited : Except IoError Bool ← perform (.tryWait child)
    if exited.toOption = some true then return false
    else if ← answers readyFile listen then return true
    else
      let woken : { instant : Instant // now.1 + fromMillis 50 ≤ instant } ← perform (.sleep now.1 (fromMillis 50))
      waitForReady child readyFile listen deadline woken.1
  else return false
termination_by deadline - since
decreasing_by exact later_lt now.2 _h woken.2

/-- Refuse while the process that the PID file names is there, and forget one that is gone. -/
def clearStale (paths : LifecyclePaths) : Option Nat → Command Unit
  | none => return ()
  | some pid => do
    refuseForeign paths pid
    if ← ExceptT.lift (processAlive pid) then throw s!"Kaiion is already running with PID {pid}"
    else removePid paths.pidFile

def launchOf (paths : LifecyclePaths) (state : PersistedState) (executable : String) : Launch where
  executable
  arguments := "--foreground" :: state.config.toArgs
  removedVariables := ["KAIION_ROUTING_POLICY", "KAIION_SCHEDULING_POLICY", "KAIION_RESUME_FROM_ENV"]
  readyFile := paths.readyFile
  logFile := paths.logFile
  workingDirectory := state.workingDirectory

def spawnService (paths : LifecyclePaths) (state : PersistedState) : Command Nat := do
  attempt "open log file" (perform (.openAppend paths.logFile))
  attempt "clone log file" (perform (.tryClone paths.logFile))
  let executable ← attempt "locate kaiion executable" (perform .currentExe)
  attempt "start Kaiion" (perform (.spawn (launchOf paths state executable)))

/-- Kill the child and wait for its end. -/
def discard (child : Nat) : Sys Unit := do
  let _ ← terminatePid child true
  perform (.wait child)

/-- Write the child's PID file, or give the child up. -/
def registerService (paths : LifecyclePaths) (child : Nat) : Command Unit := do
  match ← ExceptT.lift (writePid paths.pidFile child).run with
  | .ok () => return ()
  | .error error => do
    ExceptT.lift (discard child)
    throw error

/-- Report the child when it is ready, or give it up. -/
def awaitService (paths : LifecyclePaths) (config : Config) (child : Nat) : Command Unit := do
  let start : { instant : Instant // 0 ≤ instant } ← ExceptT.lift (perform (.now 0))
  if ← ExceptT.lift (waitForReady child paths.readyFile config.listen (start.1 + fromSecs 10) start.1) then
    ExceptT.lift (perform (.print s!"Kaiion started (PID {child}) on http://{config.listen}"))
  else do
    ExceptT.lift (discard child)
    removePid paths.pidFile
    removeIfExists paths.readyFile
    throw s!"Kaiion did not become healthy; inspect {paths.logFile.display}"

def startAt (serde : Serde) (paths : LifecyclePaths) (state : PersistedState) : Command Unit := do
  attempt "create state directory" (ensurePrivateDirectory paths.stateDir)
  attempt "create config directory" (ensurePrivateDirectory paths.configDir)
  ensureParent paths.pidFile
  ensureParent paths.logFile
  ensureParent paths.configFile
  let named ← readPid paths.pidFile
  clearStale paths named
  removeIfExists paths.readyFile
  writeState serde paths state
  let child ← spawnService paths state
  registerService paths child
  awaitService paths state.config child

def start (serde : Serde) (paths : LifecyclePaths) (config : Config) : Command Unit := do
  let workingDirectory ← attempt "locate working directory" (perform .currentDir)
  startAt serde paths { config, workingDirectory }

/-- The named process is gone: forget it. -/
def forget (paths : LifecyclePaths) (line : String) : Command Unit := do
  removePid paths.pidFile
  removeIfExists paths.readyFile
  ExceptT.lift (perform (.print line))

/-- Wait until the process is gone or the time is up. -/
def awaitGone (pid seconds : Nat) : Sys Unit := do
  let start : { instant : Instant // 0 ≤ instant } ← perform (.now 0)
  awaitExit pid (start.1 + fromSecs seconds) start.1

/-- What becomes of a process that is late. -/
def killLate (pid : Nat) (force : Bool) : (late : Bool) → Command Unit
  | false => return ()
  | true =>
    if force then throw s!"Kaiion PID {pid} did not exit"
    else do
      match ← ExceptT.lift (terminatePid pid true) with
      | .error error => throw s!"could not force stop PID {pid}: {error}"
      | .ok () => ExceptT.lift (awaitGone pid 2)

def awaitStopped (pid : Nat) (force : Bool) : Command Unit := do
  ExceptT.lift (awaitGone pid (if force then 2 else 15))
  let late ← ExceptT.lift (processAlive pid)
  killLate pid force late
  if ← ExceptT.lift (processAlive pid) then throw s!"Kaiion PID {pid} did not exit"
  else return ()

def stop (paths : LifecyclePaths) (force : Bool) : Command Unit := do
  match ← readPid paths.pidFile with
  | none => ExceptT.lift (perform (.print "Kaiion is not running"))
  | some pid =>
    refuseForeign paths pid
    if ← ExceptT.lift (processAlive pid) then
      match ← ExceptT.lift (terminatePid pid force) with
      | .error error => throw s!"could not stop PID {pid}: {error}"
      | .ok () =>
        awaitStopped pid force
        forget paths "Kaiion stopped"
    else forget paths "Kaiion is not running (removed stale PID file)"

def restart (serde : Serde) (paths : LifecyclePaths) (config : Config) (force : Bool) : Command Unit := do
  let saved ← loadState serde paths
  stop paths force
  match saved with
  | some saved => startAt serde paths saved
  | none => start serde paths config

def statusValue (paths : LifecyclePaths) (config : Config) (pid : Option Nat) (running healthy : Bool) : Value :=
  .object [("healthy", .bool healthy), ("listen", .string config.listen), ("log_file", .string paths.logFile.display),
    ("pid", match pid with
      | some pid => .number (.unsigned pid)
      | none => .null),
    ("pid_file", .string paths.pidFile.display), ("running", .bool running)]

def statusLine (config : Config) (pid : Option Nat) (running healthy : Bool) : String :=
  if healthy then s!"Kaiion is running (PID {pid.getD 0}) on http://{config.listen}"
  else if running then s!"Kaiion process {pid.getD 0} is running but unhealthy"
  else "Kaiion is stopped"

def running : Option Nat → Sys Bool
  | none => return false
  | some pid => do
    if ← processAlive pid then isOwnedProcess pid
    else return false

def healthy (config : Config) : (running : Bool) → Sys Bool
  | true => perform (.health config.listen)
  | false => return false

def status (serde : Serde) (paths : LifecyclePaths) (config : Config) (json : Bool) : Command Unit := do
  let saved ← loadState serde paths
  let config := (saved.map PersistedState.config).getD config
  let pid ← readPid paths.pidFile
  let running ← ExceptT.lift (running pid)
  let healthy ← ExceptT.lift (healthy config running)
  ExceptT.lift (perform (.print (if json then serde.print (statusValue paths config pid running healthy)
    else statusLine config pid running healthy)))

end Kaiion.Service
