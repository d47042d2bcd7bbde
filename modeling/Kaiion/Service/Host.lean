import Kaiion.Foundation.Interleaving
import Kaiion.Request.Headers
import Mathlib.Data.List.TakeWhile

/-! The operating system as the commands of the background service use it: every call is an
operation, and what a call does to the files and processes of the host is fixed apart from it. -/
namespace Kaiion.Service
open Foundation

/-- The parts of a file name around its last dot, unless that is where it begins. -/
def splitName (name : String) : Option (String × String) :=
  let after := name.toList.reverse.takeWhile (fun char => char ≠ '.')
  match name.toList.reverse.drop after.length with
  | [] => none
  | _ :: before => if before = [] then none else some (.ofList before.reverse, .ofList after.reverse)

def nameStem (name : String) : String := ((splitName name).map Prod.fst).getD name

/-- A path that ends in a file name. Names like `..a`, of which a change of extension leaves no file name, are
excluded with `.` and `..`. -/
structure Path where
  parent : String
  name : String
  named : name ≠ "" := by decide
  plain : nameStem name ≠ "." := by decide
  deriving DecidableEq, Repr

def Path.display (path : Path) : String := if path.parent = "" then path.name else path.parent ++ "/" ++ path.name

def Path.extension (path : Path) : Option String := (splitName path.name).map Prod.snd

/-- `Path::file_stem`. -/
def Path.fileStem (path : Path) : String := nameStem path.name

private theorem takeWhile_dot {l tail : List Char} (h : '.' ∉ l) :
    (l ++ '.' :: tail).takeWhile (fun char => char ≠ '.') = l := by
  induction l with
  | nil => rfl
  | cons char l ih =>
    obtain ⟨hchar, hl⟩ := not_or.mp (fun hm => h (List.mem_cons.mpr hm))
    rw [List.cons_append, List.takeWhile_cons, if_pos (by simpa using Ne.symm hchar), ih hl]

private theorem splitName_append {stem extension : String} (hstem : stem ≠ "") (h : '.' ∉ extension.toList) :
    splitName (stem ++ "." ++ extension) = some (stem, extension) := by
  have hreverse : (stem ++ "." ++ extension).toList.reverse = extension.toList.reverse ++ '.' :: stem.toList.reverse := by
    simp [String.toList_append]
  unfold splitName
  rw [hreverse, takeWhile_dot (by simpa using h)]
  dsimp only
  rw [List.drop_left]
  simp [hstem]

private theorem splitName_parts {name stem extension : String} (h : splitName name = some (stem, extension)) :
    stem ≠ "" ∧ name.toList = stem.toList ++ '.' :: extension.toList ∧ '.' ∉ extension.toList := by
  unfold splitName at h
  dsimp only at h
  split at h
  · cases h
  next dot before hdrop =>
    split at h
    · cases h
    next hne =>
      cases h
      have hafter := List.prefix_iff_eq_append.mp (List.takeWhile_prefix (l := name.toList.reverse) fun char => char ≠ '.')
      have hdot : dot = '.' := by
        have hhead := List.head?_dropWhile_not (fun char => char ≠ '.') name.toList.reverse
        rw [← List.append_cancel_left (hafter.trans List.takeWhile_append_dropWhile.symm), hdrop] at hhead
        simpa using hhead
      refine ⟨fun he => hne (by simpa using congrArg String.toList he), ?_, fun hm => ?_⟩
      · rw [hdrop, hdot] at hafter
        simpa using (congrArg List.reverse hafter).symm
      · have hlast := List.mem_takeWhile_imp (List.mem_reverse.mp (String.toList_ofList ▸ hm))
        simp at hlast

theorem Path.fileStem_ne (path : Path) : path.fileStem ≠ "" := by
  unfold Path.fileStem nameStem
  cases h : splitName path.name with
  | none => exact path.named
  | some parts => exact (splitName_parts h).1

/-- What a stem is extended to has no stem that is a lone dot. -/
private theorem plain_append {stem extension : String} (hstem : stem ≠ "") (hplain : stem ≠ ".") :
    nameStem (stem ++ "." ++ extension) ≠ "." := by
  obtain ⟨first, rest, hrest⟩ := List.exists_cons_of_ne_nil fun he => hstem (String.toList_injective he)
  unfold nameStem
  cases h : splitName (stem ++ "." ++ extension) with
  | none =>
    intro he
    have hlength := congrArg (fun name : String => name.toList.length) he
    simp [hrest] at hlength
  | some parts =>
    obtain ⟨before, after⟩ := parts
    obtain ⟨-, hparts, hafter⟩ := splitName_parts h
    rintro rfl
    have hdots : first :: (rest ++ '.' :: extension.toList) = '.' :: '.' :: after.toList := by
      simpa [String.toList_append, hrest] using hparts
    obtain ⟨rfl, hrests⟩ := List.cons.inj hdots
    cases rest with
    | nil => exact hplain (String.toList_injective hrest)
    | cons second rest =>
      have htail : rest ++ '.' :: extension.toList = after.toList := (List.cons.inj hrests).2
      exact hafter (htail ▸ List.mem_append_right rest List.mem_cons_self)

/-- `Path::with_extension`. -/
def Path.withExtension (path : Path) (extension : String) : Path where
  parent := path.parent
  name := path.fileStem ++ "." ++ extension
  named := by simp
  plain := plain_append path.fileStem_ne path.plain

/-- A path with a new extension has it. -/
theorem Path.extension_withExtension (path : Path) {extension : String} (h : '.' ∉ extension.toList) :
    (path.withExtension extension).extension = some extension := by
  unfold Path.extension Path.withExtension
  rw [splitName_append path.fileStem_ne h]
  rfl

structure File where
  content : List UInt8
  /-- The permission bits. -/
  mode : Nat
  deriving DecidableEq

structure IoError where
  notFound : Bool
  message : String
  deriving DecidableEq, Repr

inductive Signal where
  | term
  | kill
  deriving DecidableEq, Repr

inductive Errno where
  | esrch
  | eperm
  | other
  deriving DecidableEq, Repr

structure OsError where
  errno : Errno
  message : String
  deriving DecidableEq, Repr

/-- How a command starts the service. -/
structure Launch where
  executable : String
  arguments : List String
  removedVariables : List String
  readyFile : Path
  logFile : Path
  workingDirectory : String
  deriving DecidableEq, Repr

/-- The instants of a monotonic clock, in nanoseconds. -/
abbrev Instant := Nat

inductive Op where
  | currentDir
  | currentExe
  | createDirAll (directory : String)
  | setDirectoryPermissions (directory : String) (mode : Nat)
  /-- The wall clock, in nanoseconds since the epoch. -/
  | systemTime
  | processId
  | metadata (path : Path)
  | createNew (path : Path) (mode : Nat)
  | setPermissions (path : Path) (mode : Nat)
  | writeAll (path : Path) (content : List UInt8)
  | syncAll (path : Path)
  | rename (source target : Path)
  | removeFile (path : Path)
  | readToString (path : Path)
  | exist (path : Path)
  /-- Open for appending, and create what is not there. -/
  | openAppend (path : Path)
  | tryClone (path : Path)
  | spawn (launch : Launch)
  /-- No signal is signal 0. -/
  | kill (pid : Nat) (signal : Option Signal)
  /-- The executable a process runs. -/
  | readLink (pid : Nat)
  | tryWait (child : Nat)
  /-- Its result is never used. -/
  | wait (child : Nat)
  /-- A reading no earlier than a previous one. -/
  | now (since : Instant)
  | sleep (start : Instant) (nanoseconds : Nat)
  /-- The health endpoint of a service answers 200 within its timeout. -/
  | health (listen : String)
  | print (line : String)

/-- The clock does not go back, and a sleep lasts at least as long as asked. -/
abbrev Op.Reply : Op → Type
  | currentDir | currentExe | readLink _ | readToString _ => Except IoError String
  | createDirAll _ | setDirectoryPermissions _ _ | createNew _ _ | setPermissions _ _ | writeAll _ _ | syncAll _
  | rename _ _ | removeFile _ | openAppend _ | tryClone _ => Except IoError Unit
  | systemTime | metadata _ | spawn _ => Except IoError Nat
  | processId => Nat
  | exist _ | health _ => Bool
  | kill _ _ => Except OsError Unit
  | tryWait _ => Except IoError Bool
  | wait _ | print _ => Unit
  | now since => { instant : Instant // since ≤ instant }
  | sleep start nanoseconds => { instant : Instant // start + nanoseconds ≤ instant }

abbrev Sys := Prog Op.Reply

/-- A live process, and how it was started if a command of the service started it. -/
structure Process where
  executable : String
  launch : Option Launch
  deriving DecidableEq

structure World where
  files : Path → Option File
  processes : Nat → Option Process

namespace World

/-- How the service that runs under this pid was started. -/
def service (w : World) (pid : Nat) : Option Launch := (w.processes pid).bind Process.launch

def setFile (w : World) (path : Path) (file : Option File) : World :=
  { w with files := Function.update w.files path file }

def setProcess (w : World) (pid : Nat) (process : Option Process) : World :=
  { w with processes := Function.update w.processes pid process }

section Updates
variable {w : World} {path other : Path} {file : Option File} {pid pid' : Nat} {process : Option Process}

@[simp] theorem setFile_self : (w.setFile path file).files path = file := Function.update_self ..

theorem setFile_ne (h : other ≠ path) : (w.setFile path file).files other = w.files other := Function.update_of_ne h ..

@[simp] theorem setProcess_files : (w.setProcess pid process).files = w.files := rfl

@[simp] theorem setProcess_self : (w.setProcess pid process).service pid = process.bind Process.launch :=
  congrArg (Option.bind · Process.launch) (Function.update_self ..)

theorem setProcess_ne (h : pid' ≠ pid) : (w.setProcess pid process).service pid' = w.service pid' :=
  congrArg (Option.bind · Process.launch) (Function.update_of_ne h ..)

end Updates

/-- The operation can get this reply, and this is the host afterwards. -/
def Answers (op : Op) (w : World) (reply : op.Reply) (w' : World) : Prop :=
  match op, reply with
  | .metadata path, .ok mode => w' = w ∧ ∃ file, w.files path = some file ∧ mode &&& 0o7777 = file.mode
  | .createNew path mode, .ok () =>
    w.files path = none ∧ ∃ granted, w' = w.setFile path (some ⟨[], mode &&& granted⟩)
  | .setPermissions path mode, .ok () => w' = w.setFile path ((w.files path).map fun file => { file with mode })
  | .writeAll path content, .ok () =>
    w' = w.setFile path ((w.files path).map fun file => { file with content := file.content ++ content })
  | .writeAll path content, .error _ => ∃ written, written <+: content ∧
    w' = w.setFile path ((w.files path).map fun file => { file with content := file.content ++ written })
  | .rename source target, .ok () =>
    (w.files source).isSome ∧ w' = (w.setFile source none).setFile target (w.files source)
  | .removeFile path, .ok () => (w.files path).isSome ∧ w' = w.setFile path none
  | .removeFile path, .error error => w' = w ∧ (error.notFound → w.files path = none)
  | .readToString path, .ok text => w' = w ∧ (w.files path).map File.content = some (utf8 text)
  | .readToString path, .error error => w' = w ∧ (error.notFound = true ↔ w.files path = none)
  | .exist path, reply => w' = w ∧ reply = (w.files path).isSome
  | .openAppend path, .ok () =>
    ∃ mode, w' = w.setFile path (some ((w.files path).getD ⟨[], mode⟩))
  | .spawn launch, .ok pid => w.processes pid = none ∧ 0 < pid ∧ pid < 2 ^ 31 ∧
    w' = w.setProcess pid (some ⟨launch.executable, some launch⟩)
  | .kill pid none, reply => w' = w ∧ match reply with
    | .ok () => (w.processes pid).isSome
    | .error error => error.errno = .eperm ↔ (w.processes pid).isSome
  | .kill pid (some _), .ok () => (w.processes pid).isSome ∧ (w' = w ∨ w' = w.setProcess pid none)
  | .kill pid (some _), .error error => w' = w ∧ (error.errno = .esrch → w.processes pid = none)
  | .readLink pid, .ok executable => w' = w ∧ (w.processes pid).map Process.executable = some executable
  | .tryWait child, .ok true => w' = w ∧ w.service child = none
  | .wait child, () => w' = w ∧ w.service child = none
  | _, _ => w' = w

end World

/-- A command of the service: it may end with the message it prints. -/
abbrev Command := Prog.Fallible Op.Reply String

def perform (op : Op) : Sys op.Reply := Prog.perform op

/-- `map_err(io_error(action))?` -/
def attempt {α : Type} (action : String) (call : Sys (Except IoError α)) : Command α :=
  ExceptT.mk ((fun reply => reply.mapError fun error => s!"could not {action}: {error.message}") <$> call)

end Kaiion.Service
