import Kaiion.Service.PidFile

/-! Whatever the rest of the host does meanwhile, the service that runs is the one the PID file names,
and it runs the saved configuration. -/
namespace Kaiion.Service
open Foundation

section Host
variable (serde : Serde) (paths : LifecyclePaths)

/-- The files that only the commands of the service write. -/
def LifecyclePaths.Own (path : Path) : Prop :=
  path = paths.pidFile ∨ path = paths.configFile ∨ AtomicFile.Temporary path

/-- The files of the service are different ones. -/
structure LifecyclePaths.Apart : Prop where
  pid_config : paths.pidFile ≠ paths.configFile
  pid : ¬ AtomicFile.Temporary paths.pidFile
  config : ¬ AtomicFile.Temporary paths.configFile
  ready : ¬ paths.Own paths.readyFile
  log : ¬ paths.Own paths.logFile

/-- A process other than the running command moves: it may end services but starts none, and it leaves
the commands' own files alone. -/
structure Undisturbed (a b : World) : Prop where
  files : ∀ path, paths.Own path → b.files path = a.files path
  services : ∀ pid launch, b.service pid = some launch → a.service pid = some launch

/-- The file holds this text. -/
def World.Reads (w : World) (path : Path) (text : String) : Prop :=
  (w.files path).map File.content = some (utf8 text)

/-- The PID file names this process. -/
def Named (w : World) (pid : Nat) : Prop := ∃ text, w.Reads paths.pidFile text ∧ parsePid text = some pid

/-- The configuration file holds this state. -/
def Saved (w : World) (state : PersistedState) : Prop :=
  ∃ text, w.Reads paths.configFile text ∧ serde.deserialize text = .ok state

def NoService (w : World) : Prop := ∀ pid, w.service pid = none

/-- The service was started from this state. -/
def Launched (state : PersistedState) (launch : Launch) : Prop :=
  ∃ executable, launch = launchOf paths state executable

/-- A service that runs is the one that the PID file names, and it was started from the saved state. -/
def Supervised (w : World) : Prop := ∀ pid launch, w.service pid = some launch →
  Named paths w pid ∧ ∃ state, Saved serde paths w state ∧ Launched paths state launch

/-- The persisted state can be read back. -/
def Serde.RoundTrips : Prop :=
  ∀ state text, serde.serialize state = .ok text → serde.deserialize (text ++ "\n") = .ok state

end Host

section Facts
variable {serde : Serde} {paths : LifecyclePaths} {a b w : World}

theorem World.Reads.unique {path : Path} {text text' : String} (h : w.Reads path text) (h' : w.Reads path text') :
    text = text' := utf8_injective (Option.some.inj (h.symm.trans h'))

theorem Named.unique {pid pid' : Nat} (h : Named paths w pid) (h' : Named paths w pid') : pid = pid' := by
  obtain ⟨text, hreads, hparse⟩ := h
  obtain ⟨text', hreads', hparse'⟩ := h'
  rw [hreads.unique hreads', hparse'] at hparse
  exact (Option.some.inj hparse).symm

theorem Saved.unique {state state' : PersistedState} (h : Saved serde paths w state) (h' : Saved serde paths w state') :
    state = state' := by
  obtain ⟨text, hreads, hparse⟩ := h
  obtain ⟨text', hreads', hparse'⟩ := h'
  rw [hreads.unique hreads', hparse'] at hparse
  exact (Except.ok.inj hparse).symm

theorem World.Reads.of_file {path : Path} {text : String} (h : a.Reads path text) (hfile : b.files path = a.files path) :
    b.Reads path text := by
  unfold World.Reads
  rwa [hfile]

theorem Named.of_file {pid : Nat} (h : Named paths a pid) (hfile : b.files paths.pidFile = a.files paths.pidFile) :
    Named paths b pid := by
  obtain ⟨text, hreads, hparse⟩ := h
  exact ⟨text, hreads.of_file hfile, hparse⟩

theorem Saved.of_file {state : PersistedState} (h : Saved serde paths a state)
    (hfile : b.files paths.configFile = a.files paths.configFile) : Saved serde paths b state := by
  obtain ⟨text, hreads, hparse⟩ := h
  exact ⟨text, hreads.of_file hfile, hparse⟩

namespace Undisturbed

theorem refl (paths : LifecyclePaths) (a : World) : Undisturbed paths a a := ⟨fun _ _ => rfl, fun _ _ h => h⟩

theorem trans {c : World} (h : Undisturbed paths a b) (h' : Undisturbed paths b c) : Undisturbed paths a c :=
  ⟨fun path hp => (h'.files path hp).trans (h.files path hp), fun _ _ hs => h.services _ _ (h'.services _ _ hs)⟩

variable (h : Undisturbed paths a b)
include h

theorem pidFile : b.files paths.pidFile = a.files paths.pidFile := h.files _ (.inl rfl)

theorem configFile : b.files paths.configFile = a.files paths.configFile := h.files _ (.inr (.inl rfl))

theorem ended {pid : Nat} (hnone : a.service pid = none) : b.service pid = none := by
  cases hs : b.service pid with
  | none => rfl
  | some launch =>
    rw [h.services pid launch hs] at hnone
    cases hnone

theorem noService (hnone : NoService a) : NoService b := fun pid => h.ended (hnone pid)

theorem supervised (hs : Supervised serde paths a) : Supervised serde paths b := by
  intro pid launch hservice
  obtain ⟨hnamed, state, hsaved, hlaunched⟩ := hs pid launch (h.services pid launch hservice)
  exact ⟨hnamed.of_file h.pidFile, state, hsaved.of_file h.configFile, hlaunched⟩

end Undisturbed

theorem NoService.supervised (h : NoService w) : Supervised serde paths w := by
  intro pid launch hs
  rw [h pid] at hs
  cases hs

/-- Where the named process is gone no service runs. -/
theorem Supervised.noService (h : Supervised serde paths w)
    (hnamed : ∀ pid, Named paths w pid → w.service pid = none) : NoService w := by
  intro pid
  cases hs : w.service pid with
  | none => rfl
  | some launch => rw [← hs, hnamed pid (h pid launch hs).1]

/-- The operation neither writes the commands' own files nor starts a process. -/
def LifecyclePaths.Quiet (paths : LifecyclePaths) : Op → Prop
  | .createNew _ _ | .setPermissions _ _ | .writeAll _ _ | .rename _ _ | .spawn _ => False
  | .removeFile path | .openAppend path => ¬ paths.Own path
  | _ => True

private theorem setFile_undisturbed {path : Path} (hpath : ¬ paths.Own path) (file : Option File) :
    Undisturbed paths a (a.setFile path file) :=
  ⟨fun other ho => World.setFile_ne fun he : other = path => hpath (he ▸ ho), fun _ _ h => h⟩

private theorem setProcess_undisturbed (pid : Nat) : Undisturbed paths a (a.setProcess pid none) := by
  refine ⟨fun _ _ => rfl, fun other launch h => ?_⟩
  by_cases he : other = pid
  · rw [he, World.setProcess_self] at h
    cases h
  · rwa [World.setProcess_ne he] at h

/-- What such an operation does the rest of the host might have done. -/
theorem LifecyclePaths.Quiet.undisturbed {op : Op} {reply : op.Reply} (h : paths.Quiet op)
    (hanswers : World.Answers op a reply b) : Undisturbed paths a b := by
  cases op with
  | createNew => exact h.elim
  | setPermissions => exact h.elim
  | writeAll => exact h.elim
  | rename => exact h.elim
  | spawn => exact h.elim
  | removeFile path =>
    cases reply with
    | ok => exact hanswers.2 ▸ setFile_undisturbed h _
    | error => exact hanswers.1 ▸ .refl paths a
  | openAppend path =>
    cases reply with
    | ok =>
      obtain ⟨mode, rfl⟩ := hanswers
      exact setFile_undisturbed h _
    | error => exact hanswers ▸ .refl paths a
  | kill pid signal =>
    cases signal with
    | none => exact hanswers.1 ▸ .refl paths a
    | some signal =>
      cases reply with
      | ok =>
        rcases hanswers.2 with rfl | rfl
        · exact .refl paths b
        · exact setProcess_undisturbed pid
      | error => exact hanswers.1 ▸ .refl paths a
  | readToString => cases reply <;> exact hanswers.1 ▸ .refl paths a
  | metadata | readLink =>
    cases reply with
    | ok => exact hanswers.1 ▸ .refl paths a
    | error => exact hanswers ▸ .refl paths a
  | tryWait =>
    cases reply with
    | ok exited =>
      cases exited with
      | true => exact hanswers.1 ▸ .refl paths a
      | false => exact hanswers ▸ .refl paths a
    | error => exact hanswers ▸ .refl paths a
  | exist => exact hanswers.1 ▸ .refl paths a
  | wait => exact hanswers.1 ▸ .refl paths a
  | _ => exact hanswers ▸ .refl paths a

end Facts
end Kaiion.Service
