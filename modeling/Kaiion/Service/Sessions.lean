import Kaiion.Service.SupervisedCommands
import Kaiion.Json.Print

/-! Any number of commands, one after another, on a host that goes on meanwhile. -/
namespace Kaiion.Service
open Foundation

inductive Invocation where
  | start (config : Config)
  | stop (force : Bool)
  | restart (config : Config) (force : Bool)
  | status (config : Config) (json : Bool)

def Invocation.run (serde : Serde) (paths : LifecyclePaths) : Invocation → Command Unit
  | start config => Service.start serde paths config
  | stop force => Service.stop paths force
  | restart config force => Service.restart serde paths config force
  | status config json => Service.status serde paths config json

/-- Only `start` replaces a configuration that was saved. -/
def Invocation.isStart : Invocation → Bool
  | start _ => true
  | _ => false

/-- From the first state the command runs to its end with this result. -/
abbrev Finishes {α : Type} (paths : LifecyclePaths) (command : Command α) (a : World) (result : Except String α)
    (b : World) : Prop :=
  Prog.Executes (Undisturbed paths) World.Answers command.run a result b

/-- The start asked for a working directory, and went on with it. -/
def StartedFrom (serde : Serde) (paths : LifecyclePaths) (config : Config) (b : World) (workingDirectory : String)
    (c : World) : Prop :=
  ∃ asked, Finishes paths (attempt "locate working directory" (perform .currentDir)) b (.ok workingDirectory) asked ∧
    Finishes paths (startAt serde paths ⟨config, workingDirectory⟩) asked (.ok ()) c

/-- The rest of the host moves, or a command runs to its end. -/
inductive Move (serde : Serde) (paths : LifecyclePaths) (allowed : Invocation → Prop) : World → World → Prop where
  | host {a b : World} (moves : Undisturbed paths a b) : Move serde paths allowed a b
  | command {a b : World} (invocation : Invocation) (ok : allowed invocation) (result : Except String Unit)
      (finishes : Finishes paths (invocation.run serde paths) a result b) : Move serde paths allowed a b

abbrev Session (serde : Serde) (paths : LifecyclePaths) (allowed : Invocation → Prop) : World → World → Prop :=
  Relation.ReflTransGen (Move serde paths allowed)

section Example

private def home : LifecyclePaths where
  configDir := "/c"
  stateDir := "/s"
  pidFile := ⟨"", "kaiion.pid", by decide, by decide⟩
  logFile := ⟨"", "kaiion.log", by decide, by decide⟩
  readyFile := ⟨"", "kaiion.ready", by decide, by decide⟩
  configFile := ⟨"", "config.json", by decide, by decide⟩

private def usual : PersistedState := ⟨Config.defaults "sqlite:///s/kaiion.db", "/w"⟩

private def usualText : String := "\n".intercalate ["\x7b", "  \"config\": \x7b", "    \"listen\": \"127.0.0.1:8787\",",
  "    \"database_url\": \"sqlite:///s/kaiion.db\",", "    \"mode\": \"batch\",",
  "    \"upstream_base_url\": \"https://api.openai.com/v1\",", "    \"poll_interval_seconds\": 5,",
  "    \"in_progress_interval_seconds\": 15,", "    \"max_body_bytes\": 67108864,", "    \"routing_policy\": null,",
  "    \"scheduling_policy\": null,", "    \"resume_from_env\": false", "  \x7d,", "  \"working_directory\": \"/w\"", "\x7d"]

private def usualSerde : Serde where
  serialize state := if state = usual then .ok usualText else .error "another state"
  deserialize text := if text = usualText ++ "\n" then .ok usual else .error "another text"
  print := Json.print Json.pointed

private theorem usual_roundTrips : usualSerde.RoundTrips := by
  intro state text h
  unfold usualSerde at h ⊢
  dsimp only at h ⊢
  split at h
  next hstate =>
    cases h
    rw [if_pos rfl, hstate]
  next => cases h

private def bare : World := ⟨fun _ => none, fun _ => none⟩

/-- Calls that succeed with nothing in between. -/
private abbrev Can {α : Type} (p : Sys α) (post : α → World → Prop) (s : World) : Prop :=
  Prog.May (Undisturbed home) World.Answers p post s

private theorem Can.call {α : Type} {op : Op} {next : op.Reply → Sys α} {post : α → World → Prop} {s u : World}
    (reply : op.Reply) (takes : World.Answers op s reply u) (rest : Can (next reply) post u) : Can (.call op next) post s :=
  Prog.May.call reply (.refl home s) takes rest

private theorem Can.andThen {α β : Type} {p : Command α} {f : α → Command β} {post : Except String β → World → Prop}
    {s : World}
    (h : Can p.run (fun result t => ∃ value, result = .ok value ∧ Can (f value).run post t) s) : Can (p >>= f).run post s :=
  Prog.May.andThen (fun _ _ _ h h' => h.trans h') h

private theorem Can.done {α : Type} {value : α} {post : α → World → Prop} {s : World} (h : post value s) :
    Can (.ret value) post s := Prog.May.ret (.refl home) h

private theorem write_can {path : Path} {content : List UInt8} {s : World}
    (h : s.files (AtomicFile.temporary path 1 1) = none) (hmode : ∀ file, s.files path = some file → file.mode = 0o600) :
    Can (AtomicFile.write path content) (fun reply w => reply = .ok () ∧ w.processes = s.processes ∧
      w.files path = some ⟨content, 0o600⟩ ∧ ∀ p, p ≠ path → w.files p = s.files p) s := by
  have hothers (file : File) {w : World} (hw : ∀ p, p ≠ AtomicFile.temporary path 1 1 → w.files p = s.files p) :
      ((w.setFile (AtomicFile.temporary path 1 1) none).setFile path (some file)).files path = some file ∧
        ∀ p, p ≠ path → ((w.setFile (AtomicFile.temporary path 1 1) none).setFile path (some file)).files p = s.files p := by
    refine ⟨World.setFile_self, fun p hp => ?_⟩
    rw [World.setFile_ne hp]
    by_cases ht : p = AtomicFile.temporary path 1 1
    · rw [ht, World.setFile_self, h]
    · rw [World.setFile_ne ht, hw p ht]
  refine Can.call (.ok 1) rfl <| .call (1 : Nat) rfl ?_
  cases hs : s.files path with
  | none =>
    refine Can.call (.error ⟨true, "absent"⟩) rfl <| .call (.ok ()) ⟨h, 0o600, rfl⟩ <| .call (.ok ()) rfl <|
      .call (.ok ()) rfl <| .call (.ok ()) ⟨?_, rfl⟩ <| .done ⟨rfl, rfl, ?_⟩
    · simp
    · simpa using hothers ⟨content, 0o600⟩ fun p hp => by simp [World.setFile_ne hp]
  | some file =>
    refine Can.call (.ok 0o600) ⟨rfl, file, hs, (hmode file hs).symm⟩ <| .call (.ok ()) ⟨h, 0o600, rfl⟩ <|
      .call (.ok ()) rfl <| .call (.ok ()) rfl <| .call (.ok ()) rfl <| .call (.ok ()) ⟨?_, rfl⟩ <| .done ⟨rfl, rfl, ?_⟩
    · simp
    · simpa using hothers ⟨content, 0o600⟩ fun p hp => by simp [World.setFile_ne hp]

private theorem attempt_can {path : Path} {content : List UInt8} {action : String} {s : World}
    (h : s.files (AtomicFile.temporary path 1 1) = none) (hmode : ∀ file, s.files path = some file → file.mode = 0o600) :
    Can (attempt action (AtomicFile.write path content)).run (fun reply w => reply = .ok () ∧ w.processes = s.processes ∧
      w.files path = some ⟨content, 0o600⟩ ∧ ∀ p, p ≠ path → w.files p = s.files p) s := by
  refine Prog.May.bind (fun _ _ _ h h' => h.trans h') (Prog.May.mono (write_can h hmode) fun reply w hw => ?_)
  obtain ⟨rfl, hw⟩ := hw
  exact Can.done ⟨rfl, hw⟩

private theorem absent {path : Path} {w : World} (h : w.files path = none) :
    World.Answers (.readToString path) w (.error ⟨true, "absent"⟩) w := ⟨rfl, by simp [h]⟩

private theorem Can.lifted {α β : Type} {p : Sys α} {f : α → Command β} {post : Except String β → World → Prop}
    {s : World}
    (h : Can p (fun value t => Can (f value).run post t) s) : Can ((ExceptT.lift p : Command α) >>= f).run post s := by
  refine .andThen (Prog.May.lifted (.refl home) (fun _ _ _ h h' => h.trans h') ?_)
  exact Prog.May.mono h fun value _ ht => ⟨value, rfl, ht⟩

private theorem not_temporary {path : Path} (extension : String) (hext : path.extension = some extension)
    (hhead : extension.toList.head? ≠ some 't') : ¬ AtomicFile.Temporary path := by
  rintro ⟨process, stamp, h⟩
  rw [hext] at h
  refine hhead ?_
  rw [Option.some.inj h]
  simp

private theorem home_apart : home.Apart where
  pid_config := by decide
  pid := not_temporary "pid" rfl (by decide)
  config := not_temporary "json" rfl (by decide)
  ready := by
    rintro (h | h | h)
    · exact absurd h (by decide)
    · exact absurd h (by decide)
    · exact not_temporary "ready" rfl (by decide) h
  log := by
    rintro (h | h | h)
    · exact absurd h (by decide)
    · exact absurd h (by decide)
    · exact not_temporary "log" rfl (by decide) h

private theorem becomes_ready {s : World} {deadline : Nat} (h : 0 < deadline) :
    Can (waitForReady 7 home.readyFile usual.config.listen deadline 0)
      (fun ready w => ready = true ∧ w.processes = s.processes ∧
      (w.files home.readyFile).isSome ∧ ∀ p, p ≠ home.readyFile → w.files p = s.files p) s := by
  have hready : Undisturbed home s (s.setFile home.readyFile (some ⟨[], 0o644⟩)) :=
    ⟨fun p hp => World.setFile_ne fun he => home_apart.ready (he ▸ hp), fun _ _ => id⟩
  rw [waitForReady]
  refine .call ⟨0, le_rfl⟩ rfl ?_
  change Can (dite (0 < deadline) _ _) _ _
  rw [dif_pos h]
  refine .call (.ok false) rfl ?_
  refine Prog.May.call true hready ⟨rfl, by simp⟩ <| Can.call true rfl <| Can.done ?_
  exact ⟨rfl, rfl, by simp, fun p hp => World.setFile_ne hp⟩

private theorem ready_can {s : World} :
    Can (awaitService home usual.config 7).run (fun reply w => reply = .ok () ∧ w.processes = s.processes ∧
      (w.files home.readyFile).isSome ∧ ∀ p, p ≠ home.readyFile → w.files p = s.files p) s := by
  refine .lifted (.call ⟨0, le_rfl⟩ rfl (.done ?_))
  refine .lifted (Prog.May.mono (becomes_ready (by decide)) fun ready w hw => ?_)
  obtain ⟨rfl, hw⟩ := hw
  exact .call () rfl (.done ⟨rfl, hw⟩)

/-- The host before a start. -/
private structure Down (w : World) : Prop where
  pid : w.files home.pidFile = none
  ready : w.files home.readyFile = none
  config : ∀ file, w.files home.configFile = some file → file.mode = 0o600
  temporary : ∀ path, AtomicFile.Temporary path → w.files path = none
  process : w.processes 7 = none

/-- The host after it. -/
private structure Up (w : World) : Prop where
  pid : w.Reads home.pidFile (pidText 7)
  ready : (w.files home.readyFile).isSome
  saved : w.Reads home.configFile (usualText ++ "\n")
  config : ∀ file, w.files home.configFile = some file → file.mode = 0o600
  temporary : ∀ path, AtomicFile.Temporary path → w.files path = none
  process : w.processes 7 = some ⟨"/kaiion", some (launchOf home usual "/kaiion")⟩

private theorem Up.runs {w : World} (h : Up w) : (w.service 7).isSome := by
  rw [World.service, h.process]
  rfl

private theorem startAt_can {s : World} (h : Down s) :
    Can (startAt usualSerde home usual).run (fun reply w => reply = .ok () ∧ Up w) s := by
  have hconfigTemporary := h.temporary _ (AtomicFile.temporary_temporary home.configFile 1 1)
  have hpidTemporary := AtomicFile.temporary_temporary home.pidFile 1 1
  have hne {path other : Path} (ht : AtomicFile.Temporary path) (ho : ¬ AtomicFile.Temporary other) : path ≠ other :=
    fun he => ho (he ▸ ht)
  have hlog : ¬ AtomicFile.Temporary home.logFile := fun ht => home_apart.log (.inr (.inr ht))
  have hready : ¬ AtomicFile.Temporary home.readyFile := fun ht => home_apart.ready (.inr (.inr ht))
  refine Can.call (.ok ()) rfl <| .call (.ok ()) rfl <| .call (.ok ()) rfl <| .call (.ok ()) rfl <|
    .call (.error ⟨true, "absent"⟩) (absent h.pid) <| .call (.error ⟨true, "absent"⟩) ⟨rfl, fun _ => h.ready⟩ <| ?_
  have hwrite : writeState usualSerde home usual =
      attempt "write lifecycle file" (AtomicFile.write home.configFile (utf8 (usualText ++ "\n"))) := by
    simp [writeState, usualSerde]
  refine .andThen (Prog.May.mono (hwrite ▸ attempt_can hconfigTemporary h.config) fun result w hw => ⟨(), hw.1, ?_⟩)
  obtain ⟨-, hprocesses, hconfig, hfiles⟩ := hw
  refine Can.call (.ok ()) ⟨0o644, rfl⟩ <| .call (.ok ()) rfl <| .call (.ok "/kaiion") rfl <|
      .call (.ok 7) ⟨(congrFun hprocesses 7).trans h.process, by decide, by decide, rfl⟩ <| ?_
  refine .andThen (.lifted (Prog.May.mono (attempt_can ?_ ?_) fun result w hw => ?_))
  · rw [World.setProcess_files, World.setFile_ne (hne hpidTemporary hlog), hfiles _ (hne hpidTemporary home_apart.config)]
    exact h.temporary _ hpidTemporary
  · intro file hfile
    rw [World.setProcess_files, World.setFile_ne (by decide), hfiles _ (by decide), h.pid] at hfile
    cases hfile
  obtain ⟨rfl, hprocesses', hpid, hfiles'⟩ := hw
  refine .done ⟨(), rfl, Prog.May.mono ready_can fun result w hw => ?_⟩
  obtain ⟨rfl, hprocesses'', hreadyFile, hfiles''⟩ := hw
  have hsaved : w.files home.configFile = some ⟨utf8 (usualText ++ "\n"), 0o600⟩ := by
    rw [hfiles'' _ (by decide), hfiles' _ (by decide), World.setProcess_files, World.setFile_ne (by decide), hconfig]
  refine ⟨rfl, ⟨?_, hreadyFile, ?_, fun file hfile => ?_, fun path ht => ?_, ?_⟩⟩
  · rw [World.Reads, hfiles'' _ (by decide), hpid]
    rfl
  · rw [World.Reads, hsaved]
    rfl
  · rw [hsaved] at hfile
    cases hfile
    rfl
  · rw [hfiles'' _ (hne ht hready), hfiles' _ (hne ht home_apart.pid), World.setProcess_files,
      World.setFile_ne (hne ht hlog), hfiles _ (hne ht home_apart.config), h.temporary _ ht]
  · rw [hprocesses'', hprocesses']
    simp only [World.setProcess, Function.update_self]
    rfl

private theorem gone_can {s : World} {seconds : Nat} (h : s.processes 7 = none) :
    Can (awaitGone 7 seconds) (fun _ w => w = s) s := by
  have hexit (deadline since : Nat) : Can (awaitExit 7 deadline since) (fun _ w => w = s) s := by
    rw [awaitExit]
    exact Can.call (.error ⟨.esrch, "no process"⟩) ⟨rfl, by simp [h]⟩ (Can.done rfl)
  refine Prog.May.bind (fun _ _ _ h h' => h.trans h') (Can.call ⟨0, le_rfl⟩ rfl (Can.done ?_))
  exact hexit _ _

private theorem dead_can {s : World} (h : s.processes 7 = none) :
    Can (processAlive 7) (fun alive w => alive = false ∧ w = s) s :=
  Can.call (.error ⟨.esrch, "no process"⟩) ⟨rfl, by simp [h]⟩ (Can.done ⟨rfl, rfl⟩)

private theorem stopped_can {s : World} (h : s.processes 7 = none) :
    Can (awaitStopped 7 false).run (fun result w => result = .ok () ∧ w = s) s := by
  refine .lifted (Prog.May.mono (gone_can h) fun _ w hw => ?_)
  subst hw
  refine .lifted (Prog.May.mono (dead_can h) fun late w hw => ?_)
  obtain ⟨rfl, rfl⟩ := hw
  refine .andThen (Can.done ⟨(), rfl, ?_⟩)
  refine .lifted (Prog.May.mono (dead_can h) fun alive w hw => ?_)
  obtain ⟨rfl, rfl⟩ := hw
  exact Can.done ⟨rfl, rfl⟩

private theorem stop_can {s : World} (h : Up s) : Can (stop home false).run (fun reply w => reply = .ok () ∧ Down w) s := by
  have halive : (s.processes 7).isSome = true := by
    rw [h.process]
    rfl
  have hfile : (s.files home.pidFile).isSome = true := by
    rw [← Option.isSome_map, h.pid]
    rfl
  have hread : Can (readPid home.pidFile).run (fun result w => result = .ok (some 7) ∧ w = s) s := by
    refine .lifted (Can.call (.ok (pidText 7)) ⟨rfl, h.pid⟩ (Can.done ?_))
    dsimp only
    rw [parsePid_pidText 7 (by decide)]
    exact Can.done ⟨rfl, rfl⟩
  refine .andThen (Prog.May.mono hread fun result w hw => ⟨some 7, hw.1, ?_⟩)
  obtain ⟨-, rfl⟩ := hw
  refine Can.call (.ok ()) ⟨rfl, halive⟩ <| .call (.ok "/kaiion") rfl <|
    .call (.ok "/kaiion") ⟨rfl, by rw [h.process]; rfl⟩ <| .call (.ok ()) ⟨rfl, halive⟩ <|
    .call (.ok ()) ⟨halive, .inr rfl⟩ ?_
  have hgone : (w.setProcess 7 none).processes 7 = none := by simp [World.setProcess]
  refine .andThen (Prog.May.mono (stopped_can hgone) fun result w hw => ⟨(), hw.1, ?_⟩)
  obtain ⟨-, rfl⟩ := hw
  refine Can.call (.ok ()) ⟨hfile, rfl⟩ <| .call (.ok ()) ⟨h.ready, rfl⟩ <| .call () rfl <| .done ⟨rfl, ?_⟩
  refine ⟨?_, World.setFile_self, fun file hfile => h.config file ?_, fun path ht => ?_, hgone⟩
  · rw [World.setFile_ne (by decide), World.setFile_self]
  · rwa [World.setFile_ne (by decide), World.setFile_ne (by decide)] at hfile
  · have hready : path ≠ home.readyFile := fun he => home_apart.ready (he ▸ .inr (.inr ht))
    have hpid : path ≠ home.pidFile := fun he => home_apart.pid (he ▸ ht)
    rw [World.setFile_ne hready, World.setFile_ne hpid]
    exact h.temporary path ht

/-- The service comes up, and a restart that is given another configuration brings it up once more. -/
private theorem comes_up : ∃ b c : World,
    Finishes home (start usualSerde home usual.config) bare (.ok ()) b ∧
    Finishes home (restart usualSerde home (Config.defaults "sqlite:///other.db") false) b (.ok ()) c ∧ Up b ∧ Up c := by
  have hstart : Can (start usualSerde home usual.config).run (fun reply w => reply = .ok () ∧ Up w) bare :=
    Can.call (.ok "/w") rfl (startAt_can ⟨rfl, rfl, (fun _ h => nomatch h), fun _ _ => rfl, rfl⟩)
  obtain ⟨result, b, hstart, rfl, hb⟩ := hstart
  have hrestart : Can (restart usualSerde home (Config.defaults "sqlite:///other.db") false).run
      (fun reply w => reply = .ok () ∧ Up w) b := by
    have hload : Can (loadState usualSerde home).run (fun result w => result = .ok (some usual) ∧ w = b) b := by
      refine .lifted (Can.call (.ok (usualText ++ "\n")) ⟨rfl, hb.saved⟩ (Can.done ?_))
      have hparse : usualSerde.deserialize (usualText ++ "\n") = .ok usual := by simp [usualSerde]
      dsimp only
      rw [hparse]
      exact Can.done ⟨rfl, rfl⟩
    refine .andThen (Prog.May.mono hload fun result w hw => ⟨some usual, hw.1, ?_⟩)
    obtain ⟨-, rfl⟩ := hw
    exact .andThen (Prog.May.mono (stop_can hb) fun result w hw => ⟨(), hw.1, startAt_can hw.2⟩)
  obtain ⟨result, c, hrestart, rfl, hc⟩ := hrestart
  exact ⟨b, c, hstart, hrestart, hb, hc⟩

end Example

section Sessions
variable {serde : Serde} {paths : LifecyclePaths} {allowed : Invocation → Prop} {a b : World}
variable (apart : paths.Apart) (roundTrips : serde.RoundTrips)
include apart roundTrips

variable {keep : Prop} {state : PersistedState}

/-- Step lemma: every command brings back what it started from. -/
theorem Invocation.sound {invocation : Invocation} (hkeep : keep → invocation.isStart = false) {result : Except String Unit}
    (finishes : Finishes paths (invocation.run serde paths) a result b) (ha : Sound serde paths keep state a) :
    Sound serde paths keep state b := by
  cases invocation with
  | start config =>
    have hend := Prog.Safe.executes (start_upholds apart roundTrips config ha.1) finishes
    refine ⟨?_, fun hk => absurd (hkeep hk) Bool.true_eq_false.mp⟩
    cases result with
    | ok =>
      obtain ⟨workingDirectory, hstarted⟩ := hend
      have hsound : Sound serde paths False ⟨config, workingDirectory⟩ b := hstarted.sound
      exact hsound.1
    | error => exact hend
  | stop force =>
    have hend := Prog.Safe.executes (stop_upholds apart keep state force ha) finishes
    cases result with
    | ok => exact hend.1.sound
    | error => exact hend
  | restart config force =>
    have hend := Prog.Safe.executes (restart_upholds apart roundTrips config force ha) finishes
    cases result with
    | ok => exact hend.1
    | error => exact hend
  | status config json =>
    have hend : Upholds paths (Service.status serde paths config json).run (fun _ => Sound serde paths keep state) a :=
      Upholds.uses (stable_sound keep state) (status_uses config json) ha
    have hsound := Prog.Safe.executes hend finishes
    exact hsound

/-- Run lemma. -/
theorem Session.sound (hkeep : keep → ∀ invocation, allowed invocation → invocation.isStart = false)
    (h : Session serde paths allowed a b) (ha : Sound serde paths keep state a) : Sound serde paths keep state b := by
  induction h with
  | refl => exact ha
  | tail _ move ih =>
    cases move with
    | host moves => exact stable_sound keep state _ _ ih moves
    | command invocation ok result finishes =>
      exact Invocation.sound apart roundTrips (fun hk => hkeep hk invocation ok) finishes ih

private theorem Session.supervised (fresh : NoService a) (h : Session serde paths allowed a b) :
    Supervised serde paths b := by
  have hsound : Sound serde paths False default b :=
    Session.sound apart roundTrips False.elim h ⟨fresh.supervised, False.elim⟩
  exact hsound.1

/-- From a host on which no service runs, through any number of starts, stops, restarts and status
queries, each run to its end with any failures of the host's calls on its way, and among anything else
that ends services: whenever no command is running, a service that runs is the one the PID file names, it
was started from exactly the saved configuration, and it is the only one. -/
theorem service_supervised (fresh : NoService a) (h : Session serde paths (fun _ => True) a b) :
    (∀ pid launch, b.service pid = some launch →
      Named paths b pid ∧ ∃ state, Saved serde paths b state ∧ Launched paths state launch) ∧
    ∀ pid pid', (b.service pid).isSome → (b.service pid').isSome → pid = pid' := by
  have hsupervised := Session.supervised apart roundTrips fresh h
  refine ⟨hsupervised, fun pid pid' hpid hpid' => ?_⟩
  obtain ⟨launch, hs⟩ := Option.isSome_iff_exists.mp hpid
  obtain ⟨launch', hs'⟩ := Option.isSome_iff_exists.mp hpid'
  exact (hsupervised pid launch hs).1.unique (hsupervised pid' launch' hs').1

omit apart roundTrips in
/-- A service that was started and restarted. -/
theorem service_supervised_restarted : ∃ c : World, (c.service 7).isSome ∧ ∀ pid launch, c.service pid = some launch →
    Named home c pid ∧ ∃ state, Saved usualSerde home c state ∧ Launched home state launch := by
  obtain ⟨b, c, hstart, hrestart, -, hc⟩ := comes_up
  have hsession : Session usualSerde home (fun _ => True) bare c :=
    .tail (.single (.command (.start usual.config) trivial _ hstart)) (.command (.restart _ false) trivial _ hrestart)
  exact ⟨c, hc.runs, (service_supervised home_apart usual_roundTrips (fun _ => rfl) hsession).1⟩

omit apart roundTrips in
private theorem start_startedFrom {c : World} {config : Config}
    (started : Finishes paths (start serde paths config) b (.ok ()) c) :
    ∃ workingDirectory, StartedFrom serde paths config b workingDirectory c := by
  rcases Prog.Executes.of_andThen (.refl paths) started with ⟨error, h⟩ | ⟨workingDirectory, asked, hasked, hrest⟩
  · cases h
  · exact ⟨workingDirectory, asked, hasked, hrest⟩

private theorem StartedFrom.started {c : World} {config : Config} {workingDirectory : String}
    (hb : Supervised serde paths b) (h : StartedFrom serde paths config b workingDirectory c) :
    Started serde paths ⟨config, workingDirectory⟩ c := by
  obtain ⟨asked, hasked, hrest⟩ := h
  have hlocated := Prog.Safe.executes (Upholds.attempt (E := Supervised serde paths) stable_supervised
    stable_supervised (fun _ => id) (Prog.Uses.performs Op.currentDir trivial) hb) hasked
  have hsound : Sound serde paths False ⟨config, workingDirectory⟩ asked := ⟨hlocated, False.elim⟩
  have hstarted := Prog.Safe.executes (startAt_upholds apart roundTrips False hsound) hrest
  exact hstarted

/-- A start that succeeded asked for a working directory, and whatever is stopped, restarted and queried from then
on, with whatever options: every service that runs has the arguments of that start and that working directory. -/
theorem restarts_keep_configuration {c : World} {config : Config} (fresh : NoService a)
    (before : Session serde paths (fun _ => True) a b)
    (started : Finishes paths (start serde paths config) b (.ok ()) c) :
    ∃ workingDirectory, StartedFrom serde paths config b workingDirectory c ∧
      ∀ d, Session serde paths (fun invocation => invocation.isStart = false) c d →
        ∀ pid launch, d.service pid = some launch →
          launch.arguments = "--foreground" :: config.toArgs ∧ launch.workingDirectory = workingDirectory := by
  obtain ⟨workingDirectory, hfrom⟩ := start_startedFrom started
  refine ⟨workingDirectory, hfrom, fun d after pid launch hs => ?_⟩
  have hstarted := hfrom.started apart roundTrips (Session.supervised apart roundTrips fresh before)
  have hsound : Sound serde paths True ⟨config, workingDirectory⟩ d :=
    Session.sound apart roundTrips (fun _ _ => id) after hstarted.sound
  obtain ⟨-, state, hsaved, executable, rfl⟩ := hsound.1 pid launch hs
  rw [hsaved.unique (hsound.2 trivial)]
  exact ⟨rfl, rfl⟩

omit apart roundTrips in
/-- The restart is given another configuration. -/
theorem restarts_keep_configuration_other : ∃ b c : World, (b.service 7).isSome ∧ (c.service 7).isSome ∧
    ∃ workingDirectory, StartedFrom usualSerde home usual.config bare workingDirectory b ∧
      ∀ w ∈ [b, c], ∀ pid launch, w.service pid = some launch →
        launch.arguments = "--foreground" :: usual.config.toArgs ∧ launch.workingDirectory = workingDirectory := by
  obtain ⟨b, c, hstart, hrestart, hb, hc⟩ := comes_up
  obtain ⟨workingDirectory, hfrom, hkept⟩ :=
    restarts_keep_configuration home_apart usual_roundTrips (fun _ => rfl) .refl hstart
  refine ⟨b, c, hb.runs, hc.runs, workingDirectory, hfrom, fun w hw => ?_⟩
  rcases List.mem_pair.mp hw with rfl | rfl
  · exact hkept w .refl
  · exact hkept w (.single (.command (.restart _ false) rfl _ hrestart))

/-- A stop that reports success leaves no service and no PID file. -/
theorem stop_stops {c : World} {force : Bool} (fresh : NoService a) (before : Session serde paths (fun _ => True) a b)
    (stopped : Finishes paths (stop paths force) b (.ok ()) c) : NoService c ∧ c.files paths.pidFile = none := by
  have hsupervised := Session.supervised apart roundTrips fresh before
  obtain ⟨hidle, hfile⟩ := Prog.Safe.executes (stop_upholds apart False default force ⟨hsupervised, False.elim⟩) stopped
  exact ⟨hidle.1, hfile⟩

omit apart roundTrips in
/-- The service that was started is stopped. -/
theorem stop_stops_started : ∃ b c : World, (b.service 7).isSome ∧ NoService c ∧ c.files home.pidFile = none := by
  obtain ⟨b, c, hstart, -, hb, -⟩ := comes_up
  obtain ⟨result, d, hstop, rfl, -⟩ := stop_can hb
  have hsession : Session usualSerde home (fun _ => True) bare b :=
    .single (.command (.start usual.config) trivial _ hstart)
  exact ⟨b, d, hb.runs, stop_stops home_apart usual_roundTrips (fun _ => rfl) hsession hstop⟩

end Sessions
end Kaiion.Service
