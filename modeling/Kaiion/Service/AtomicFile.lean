import Kaiion.Service.Host

/-! Replacing a file: the new content is written to a file of its own, which then takes the place of
the old one. -/
namespace Kaiion.Service
open Foundation

namespace AtomicFile

def temporary (path : Path) (process stamp : Nat) : Path :=
  path.withExtension ("tmp-" ++ toString process ++ "-" ++ toString stamp)

def existingMode (path : Path) : Sys (Option Nat) := do
  let metadata : Except IoError Nat ← perform (.metadata path)
  return metadata.toOption.map fun mode => mode &&& 0o7777

/-- The mode of the file to be replaced, if there is one. -/
def keepMode (temporary : Path) : Option Nat → Prog.Fallible Op.Reply IoError Unit
  | some mode => ExceptT.mk (perform (.setPermissions temporary mode))
  | none => pure ()

def fill (temporary path : Path) (existingMode : Option Nat) (content : List UInt8) :
    Prog.Fallible Op.Reply IoError Unit := do
  ExceptT.mk (perform (.createNew temporary 0o600))
  keepMode temporary existingMode
  ExceptT.mk (perform (.writeAll temporary content))
  ExceptT.mk (perform (.syncAll temporary))
  ExceptT.mk (perform (.rename temporary path))

/-- Nothing is left behind by an attempt that failed. -/
def cleanUp (temporary : Path) : Except IoError Unit → Sys (Except IoError Unit)
  | .ok () => return .ok ()
  | .error error => do
    let _ ← perform (.removeFile temporary)
    return .error error

def write (path : Path) (content : List UInt8) : Sys (Except IoError Unit) := do
  match ← (perform .systemTime : Sys (Except IoError Nat)) with
  | .error error => return .error error
  | .ok stamp => do
    let process : Nat ← perform .processId
    let temporary := temporary path process stamp
    let existingMode ← existingMode path
    let result ← (fill temporary path existingMode content).run
    cleanUp temporary result

/-- An extension that `write` gives its temporary files. -/
def Temporary (path : Path) : Prop := ∃ process stamp : Nat,
  path.extension = some ("tmp-" ++ toString process ++ "-" ++ toString stamp)

private theorem digits_only {n : Nat} {char : Char} (h : char ∈ (toString n).toList) : char.isDigit = true := by
  rw [Nat.toString_eq_ofList_toDigits, String.toList_ofList] at h
  exact Nat.isDigit_of_mem_toDigits (by decide) (by decide) h

private theorem digits_dot (n : Nat) : '.' ∉ (toString n).toList := fun h => absurd (digits_only h) (by decide)

private theorem extension_dot (process stamp : Nat) :
    '.' ∉ ("tmp-" ++ toString process ++ "-" ++ toString stamp).toList := by
  simp only [String.toList_append, List.mem_append, not_or]
  exact ⟨⟨⟨by decide, digits_dot process⟩, by decide⟩, digits_dot stamp⟩

theorem temporary_extension (path : Path) (process stamp : Nat) :
    (temporary path process stamp).extension = some ("tmp-" ++ toString process ++ "-" ++ toString stamp) :=
  path.extension_withExtension (extension_dot process stamp)

theorem temporary_temporary (path : Path) (process stamp : Nat) : Temporary (temporary path process stamp) :=
  ⟨process, stamp, temporary_extension path process stamp⟩

private theorem digits_inj {m n : Nat} (h : (toString m).toList = (toString n).toList) : m = n := by
  rw [Nat.toString_eq_ofList_toDigits, Nat.toString_eq_ofList_toDigits, String.toList_ofList, String.toList_ofList] at h
  have hvalue := congrArg (fun digits => Nat.ofDigitChars 10 digits 0) h
  simpa only [Nat.ofDigitChars_ten_toDigits] using hvalue

private theorem digits_dash (n : Nat) : '-' ∉ (toString n).toList := fun h => absurd (digits_only h) (by decide)

private theorem numbers_inj {m n p q : Nat}
    (h : "tmp-" ++ toString m ++ "-" ++ toString p = "tmp-" ++ toString n ++ "-" ++ toString q) : m = n ∧ p = q := by
  have hl := congrArg String.toList h
  simp only [String.toList_append, List.append_assoc] at hl
  have hjoin : (toString m).toList ++ '-' :: (toString p).toList = (toString n).toList ++ '-' :: (toString q).toList :=
    List.append_cancel_left hl
  rcases join_eq_iff.mp hjoin with ⟨hm, hp⟩ | hshifted | hshifted
  · exact ⟨digits_inj hm, digits_inj hp⟩
  · exact absurd hshifted.mem (digits_dash n)
  · exact absurd hshifted.mem (digits_dash m)

section Writer
variable {rely guarantee : World → World → Prop} {handle : (op : Op) → World → op.Reply → World → Prop}

/-- What a writer of `content` to `path` needs of its surroundings: its temporary files are its own,
what holds while it works (`P`) is not about them, and what holds when it is done (`Q`) follows from one
of them taking the place of the old file. -/
structure Shelter (rely guarantee : World → World → Prop) (handle : (op : Op) → World → op.Reply → World → Prop)
    (path : Path) (content : List UInt8) (temps : Path → Prop) (modes : Nat → Prop) (P Q : World → Prop) :
    Prop where
  refl : ∀ a, rely a a
  trans : ∀ a b c, rely a b → rely b c → rely a c
  answers : ∀ op a reply b, handle op a reply b → World.Answers op a reply b
  named : ∀ a stamp b c process d, handle .systemTime a (.ok stamp) b → handle .processId c process d →
    temps (temporary path process stamp)
  own : ∀ t a b, temps t → rely a b → b.files t = a.files t
  stable : ∀ a b, P a → rely a b → P b
  settled : ∀ a b, Q a → rely a b → Q b
  idle : ∀ a, P a → guarantee a a
  works : ∀ t a b, P a → temps t → b.processes = a.processes → (∀ p, p ≠ t → b.files p = a.files p) →
    P b ∧ guarantee a b
  installs : ∀ t mode a b, P a → temps t → modes mode → a.files t = some ⟨content, mode⟩ →
    b = (a.setFile t none).setFile path (some ⟨content, mode⟩) → Q b ∧ guarantee a b
  masks : ∀ granted, modes (0o600 &&& granted)
  existing : ∀ a file, P a → a.files path = some file → modes file.mode

variable {path : Path} {content : List UInt8} {temps : Path → Prop} {modes : Nat → Prop} {P Q : World → Prop}

/-- The outcome of a writer. -/
def Outcome (P Q : World → Prop) : Except IoError Unit → World → Prop
  | .ok (), w => Q w
  | .error _, w => P w

/-- While a writer works, with what its temporary file is. -/
def Stage (P : World → Prop) (t : Path) (state : Option File → Prop) (w : World) : Prop := P w ∧ state (w.files t)

/-- The file has this content and a mode it may have. -/
def Filled (modes : Nat → Prop) (content : List UInt8) (file : Option File) : Prop :=
  ∃ mode, modes mode ∧ file = some ⟨content, mode⟩

namespace Shelter
variable (h : Shelter rely guarantee handle path content temps modes P Q)
include h

private theorem stage_stable {t : Path} (ht : temps t) {state : Option File → Prop} (a b : World)
    (ha : Stage P t state a) (hr : rely a b) : Stage P t state b :=
  ⟨h.stable a b ha.1 hr, by rw [h.own t a b ht hr]; exact ha.2⟩

private theorem outcome_stable (result : Except IoError Unit) (a b : World) (ha : Outcome P Q result a)
    (hr : rely a b) : Outcome P Q result b := by
  cases result with
  | ok => exact h.settled a b ha hr
  | error => exact h.stable a b ha hr

/-- A call on the temporary file. -/
private theorem stage {t : Path} (ht : temps t) (state : Option File → Prop) {op : Op}
    {next : op.Reply → Option File → Prop} {s : World} (hs : Stage P t state s)
    (hop : ∀ a reply b, state (a.files t) → World.Answers op a reply b →
      b.processes = a.processes ∧ (∀ p, p ≠ t → b.files p = a.files p) ∧ next reply (b.files t)) :
    Prog.Safe rely guarantee handle (perform op) (fun reply => Stage P t (next reply)) s := by
  refine Prog.Safe.performed (Stage P t state) hs (h.stage_stable ht) (fun reply => h.stage_stable ht) ?_
  intro a reply b ha hb
  obtain ⟨hprocesses, hothers, hnext⟩ := hop a reply b ha.2 (h.answers op a reply b hb)
  obtain ⟨hP, hg⟩ := h.works t a b ha.1 ht hprocesses hothers
  exact ⟨hg, hP, hnext⟩

/-- A fallible call on the temporary file, with what follows it. -/
private theorem then_stage {t : Path} {next : Option File → Prop}
    {call rest : Prog.Fallible Op.Reply IoError Unit} {s : World}
    (hcall : Prog.Safe rely guarantee handle call.run
      (fun reply w => Stage P t (fun file => reply = .ok () → next file) w) s)
    (hrest : ∀ w, Stage P t next w → Prog.Safe rely guarantee handle rest.run (Outcome P Q) w) :
    Prog.Safe rely guarantee handle (call >>= fun _ => rest).run (Outcome P Q) s := by
  refine Prog.Safe.andThen h.refl h.outcome_stable (Prog.Safe.mono hcall fun reply w hw => ?_)
  cases reply with
  | ok => exact hrest w ⟨hw.1, hw.2 rfl⟩
  | error => exact hw.1

private theorem create {t : Path} (ht : temps t) {s : World} (hs : P s) :
    Prog.Safe rely guarantee handle (perform (.createNew t 0o600))
      (fun reply => Stage P t (fun file => reply = .ok () → Filled modes [] file)) s := by
  refine h.stage ht (fun _ => True) ⟨hs, trivial⟩ fun a reply b _ hb => ?_
  cases reply with
  | error => cases hb; exact ⟨rfl, fun _ _ => rfl, fun hr => nomatch hr⟩
  | ok =>
    obtain ⟨-, granted, rfl⟩ := hb
    exact ⟨rfl, fun p hp => World.setFile_ne hp, fun _ => ⟨_, h.masks granted, World.setFile_self⟩⟩

private theorem keep {t : Path} (ht : temps t) {mode : Option Nat} (hmode : ∀ m, mode = some m → modes m) {s : World}
    (hs : Stage P t (Filled modes []) s) :
    Prog.Safe rely guarantee handle (keepMode t mode).run
      (fun reply => Stage P t (fun file => reply = .ok () → Filled modes [] file)) s := by
  cases mode with
  | none => exact fun w hw => h.stage_stable ht s w ⟨hs.1, fun _ => hs.2⟩ hw
  | some m =>
    refine h.stage ht _ hs fun a reply b hfile hb => ?_
    obtain ⟨_, -, hfile⟩ := hfile
    cases reply with
    | error => cases hb; exact ⟨rfl, fun _ _ => rfl, fun hr => nomatch hr⟩
    | ok =>
      cases hb
      refine ⟨rfl, fun p hp => World.setFile_ne hp, fun _ => ⟨m, hmode m rfl, ?_⟩⟩
      exact World.setFile_self.trans (by rw [hfile]; rfl)

private theorem fills {t : Path} (ht : temps t) {s : World} (hs : Stage P t (Filled modes []) s) :
    Prog.Safe rely guarantee handle (perform (.writeAll t content))
      (fun reply => Stage P t (fun file => reply = .ok () → Filled modes content file)) s := by
  refine h.stage ht _ hs fun a reply b hfile hb => ?_
  obtain ⟨m, hm, hfile⟩ := hfile
  cases reply with
  | error =>
    obtain ⟨_, _, rfl⟩ := hb
    exact ⟨rfl, fun p hp => World.setFile_ne hp, fun hr => nomatch hr⟩
  | ok =>
    cases hb
    refine ⟨rfl, fun p hp => World.setFile_ne hp, fun _ => ⟨m, hm, ?_⟩⟩
    exact World.setFile_self.trans (by rw [hfile]; rfl)

private theorem syncs {t : Path} (ht : temps t) {s : World} (hs : Stage P t (Filled modes content) s) :
    Prog.Safe rely guarantee handle (perform (.syncAll t))
      (fun reply => Stage P t (fun file => reply = .ok () → Filled modes content file)) s := by
  refine h.stage ht _ hs fun a reply b hfile hb => ?_
  cases reply <;> cases hb <;> exact ⟨rfl, fun _ _ => rfl, fun _ => hfile⟩

private theorem installed {t : Path} (ht : temps t) {s : World} (hs : Stage P t (Filled modes content) s) :
    Prog.Safe rely guarantee handle (perform (.rename t path)) (Outcome P Q) s := by
  refine Prog.Safe.performed _ hs (h.stage_stable ht) h.outcome_stable ?_
  rintro a reply b ⟨hP, m, hm, hfile⟩ hb
  have hb := h.answers _ _ _ _ hb
  cases reply with
  | error => cases hb; exact ⟨h.idle _ hP, hP⟩
  | ok =>
    obtain ⟨-, hb⟩ := hb
    rw [hfile] at hb
    obtain ⟨hQ, hg⟩ := h.installs t m a b hP ht hm hfile hb
    exact ⟨hg, hQ⟩

theorem fill_safe {t : Path} (ht : temps t) {mode : Option Nat} (hmode : ∀ m, mode = some m → modes m) {s : World}
    (hs : P s) : Prog.Safe rely guarantee handle (fill t path mode content).run (Outcome P Q) s := by
  refine h.then_stage (h.create ht hs) fun w hw => ?_
  refine h.then_stage (h.keep ht hmode hw) fun w hw => ?_
  refine h.then_stage (h.fills ht hw) fun w hw => ?_
  exact h.then_stage (h.syncs ht hw) fun w hw => h.installed ht hw

theorem cleanUp_safe {t : Path} (ht : temps t) {result : Except IoError Unit} {s : World}
    (hs : Outcome P Q result s) : Prog.Safe rely guarantee handle (cleanUp t result) (Outcome P Q) s := by
  cases result with
  | ok => exact fun w hw => h.settled s w hs hw
  | error error =>
    have hremoved : Prog.Safe rely guarantee handle (perform (.removeFile t)) (fun _ => Stage P t fun _ => True) s := by
      refine h.stage ht (fun _ => True) ⟨hs, trivial⟩ fun a reply b _ hb => ?_
      cases reply with
      | ok =>
        obtain ⟨-, rfl⟩ := hb
        exact ⟨rfl, fun p hp => World.setFile_ne hp, trivial⟩
      | error =>
        obtain ⟨rfl, -⟩ := hb
        exact ⟨rfl, fun _ _ => rfl, trivial⟩
    exact Prog.Safe.bind h.refl (Prog.Safe.mono hremoved fun _ w hw u hu => h.stable w u hw.1 hu)

/-- A call that only looks, with what it may tell. -/
private theorem looks {op : Op} (result : op.Reply → Prop) {s : World} (hs : P s)
    (hop : ∀ a reply b, P a → handle op a reply b → b = a ∧ result reply) :
    Prog.Safe rely guarantee handle (perform op) (fun reply w => result reply ∧ P w) s := by
  refine Prog.Safe.performed P hs h.stable (fun _ a b ha hr => ⟨ha.1, h.stable a b ha.2 hr⟩) ?_
  intro a reply b ha hb
  obtain ⟨rfl, hr⟩ := hop a reply b ha hb
  exact ⟨h.idle _ ha, hr, ha⟩

/-- The writer ends with its target replaced by the whole content, or with its target untouched. -/
theorem write_safe {s : World} (hs : P s) : Prog.Safe rely guarantee handle (write path content) (Outcome P Q) s := by
  refine Prog.Safe.bind h.refl (Prog.Safe.mono (h.looks
    (fun reply => ∃ a b, handle .systemTime a reply b) hs fun a reply b _ hb => ⟨h.answers _ _ _ _ hb, a, b, hb⟩) ?_)
  rintro stamp w ⟨⟨a, b, htime⟩, hw⟩
  cases stamp with
  | error error => exact fun u hu => h.stable w u hw hu
  | ok stamp =>
    refine Prog.Safe.bind h.refl (Prog.Safe.mono (h.looks
      (fun process => temps (temporary path process stamp)) hw
      fun c process d _ hd => ⟨h.answers _ _ _ _ hd, h.named _ _ _ _ _ _ htime hd⟩) ?_)
    rintro process w ⟨ht, hw⟩
    refine Prog.Safe.bind h.refl (Prog.Safe.bind h.refl (Prog.Safe.mono (h.looks
      (fun reply : Except IoError Nat => ∀ mode, reply = .ok mode → modes (mode &&& 0o7777)) hw ?_) ?_))
    · intro a reply b ha hb
      have hb := h.answers _ _ _ _ hb
      cases reply with
      | error => cases hb; exact ⟨rfl, fun _ hr => nomatch hr⟩
      | ok mode =>
        obtain ⟨rfl, file, hfile, hmode⟩ := hb
        refine ⟨rfl, fun mode hr => ?_⟩
        cases hr
        rw [hmode]
        exact h.existing _ file ha hfile
    · rintro metadata w ⟨hmode, hw⟩ u hu
      refine Prog.Safe.bind h.refl (Prog.Safe.mono (h.fill_safe ht ?_ (h.stable w u hw hu)) fun result v hv =>
        h.cleanUp_safe ht hv)
      cases metadata with
      | error => exact fun _ hm => nomatch hm
      | ok mode => exact fun m hm => Option.some.inj hm ▸ hmode mode rfl

end Shelter
end Writer

/-- One call of `write`, with the process that makes it and the instant of its clock. -/
structure Writer where
  path : Path
  content : List UInt8
  process : Nat
  stamp : Nat

def Writer.temporary (writer : Writer) : Path := AtomicFile.temporary writer.path writer.process writer.stamp

/-- The host answers a writer with its own process and instant. -/
def Writer.Answers (writer : Writer) (op : Op) (w : World) (reply : op.Reply) (w' : World) : Prop :=
  World.Answers op w reply w' ∧ match op, reply with
    | .processId, process => process = writer.process
    | .systemTime, .ok stamp => stamp = writer.stamp
    | _, _ => True

section Writers
variable {ι : Type} (writers : ι → Writer) (initial : World)

/-- The mode of the file that was there, or one that only the owner has. -/
def Mode (path : Path) (mode : Nat) : Prop :=
  (∃ file, initial.files path = some file ∧ mode = file.mode) ∨ ∃ granted, mode = 0o600 &&& granted

/-- The file is one writer's whole content. -/
def Replaced (path : Path) (file : Option File) : Prop :=
  ∃ i mode, (writers i).path = path ∧ file = some ⟨(writers i).content, mode⟩ ∧ Mode initial path mode

/-- Every file but the temporary ones is untouched or whole. -/
def Whole (w : World) : Prop := ∀ path, (∀ i, path ≠ (writers i).temporary) →
  w.files path = initial.files path ∨ Replaced writers initial path (w.files path)

/-- What every step keeps: whole files, and files that were replaced. -/
def Keeps (a b : World) : Prop := (Whole writers initial a → Whole writers initial b) ∧
  ∀ i, Replaced writers initial (writers i).path (a.files (writers i).path) →
    Replaced writers initial (writers i).path (b.files (writers i).path)

/-- The writers can be told apart, and none writes over temporary files. -/
structure Apart : Prop where
  distinct : ∀ i j, i ≠ j → ((writers i).process, (writers i).stamp) ≠ ((writers j).process, (writers j).stamp)
  targets : ∀ i, ¬ Temporary (writers i).path

variable {writers initial}

theorem Apart.temporary_ne (h : Apart writers) {i j : ι} (hij : i ≠ j) :
    (writers i).temporary ≠ (writers j).temporary := by
  intro he
  have hext := congrArg Path.extension he
  rw [Writer.temporary, Writer.temporary, temporary_extension, temporary_extension] at hext
  obtain ⟨hprocess, hstamp⟩ := numbers_inj (Option.some.inj hext)
  exact h.distinct i j hij (Prod.ext hprocess hstamp)

theorem Apart.path_ne (h : Apart writers) (i j : ι) : (writers i).path ≠ (writers j).temporary :=
  fun he => h.targets i (he ▸ temporary_temporary _ _ _)

/-- What a writer does to its temporary file keeps the others. -/
private theorem Apart.keeps_works (h : Apart writers) {i : ι} {a b : World}
    (hothers : ∀ p, p ≠ (writers i).temporary → b.files p = a.files p) : Keeps writers initial a b := by
  constructor
  · intro ha path hpath
    rw [hothers path (hpath i)]
    exact ha path hpath
  · intro j hj
    rwa [hothers _ (h.path_ne j i)]

private theorem Apart.installs_files (h : Apart writers) {i : ι} {a b : World} {file : File}
    (hb : b = (a.setFile (writers i).temporary none).setFile (writers i).path (some file)) :
    b.files (writers i).temporary = none ∧ b.files (writers i).path = some file ∧
      ∀ p, p ≠ (writers i).path → p ≠ (writers i).temporary → b.files p = a.files p := by
  subst hb
  refine ⟨(World.setFile_ne (Ne.symm (h.path_ne i i))).trans World.setFile_self, World.setFile_self, fun p hp ht => ?_⟩
  exact (World.setFile_ne hp).trans (World.setFile_ne ht)

private theorem Apart.keeps_installs (h : Apart writers) {i : ι} {a b : World} {mode : Nat}
    (hmode : Mode initial (writers i).path mode)
    (hb : b = (a.setFile (writers i).temporary none).setFile (writers i).path (some ⟨(writers i).content, mode⟩)) :
    Keeps writers initial a b := by
  obtain ⟨-, hself, hothers⟩ := h.installs_files hb
  have hreplaced : Replaced writers initial (writers i).path (b.files (writers i).path) := ⟨i, mode, rfl, hself, hmode⟩
  constructor
  · intro ha path hpath
    by_cases hp : path = (writers i).path
    · subst hp
      exact .inr hreplaced
    · rw [hothers path hp (hpath i)]
      exact ha path hpath
  · intro j hj
    by_cases hp : (writers j).path = (writers i).path
    · rw [hp]
      exact hreplaced
    · rwa [hothers _ hp (h.path_ne j i)]

/-- What a writer relies on. -/
def Relies (writers : ι → Writer) (initial : World) (i : ι) (a b : World) : Prop :=
  b.files (writers i).temporary = a.files (writers i).temporary ∧ Keeps writers initial a b

/-- What a writer guarantees. -/
def Guarantees (writers : ι → Writer) (initial : World) (i : ι) (a b : World) : Prop :=
  (∀ j, j ≠ i → b.files (writers j).temporary = a.files (writers j).temporary) ∧ Keeps writers initial a b

/-- What is left when a writer is done. -/
def Done (writers : ι → Writer) (initial : World) (i : ι) (w : World) : Prop :=
  Whole writers initial w ∧ w.files (writers i).temporary = none ∧
    Replaced writers initial (writers i).path (w.files (writers i).path)

/-- Among writers a writer is sheltered. -/
theorem Apart.shelter (h : Apart writers) (i : ι) :
    Shelter (Relies writers initial i) (Guarantees writers initial i) (writers i).Answers (writers i).path
      (writers i).content (fun path => path = (writers i).temporary) (Mode initial (writers i).path)
      (Whole writers initial) (Done writers initial i) where
  refl a := ⟨rfl, id, fun _ => id⟩
  trans a b c hab hbc := ⟨hbc.1.trans hab.1, hbc.2.1 ∘ hab.2.1, fun j hj => hbc.2.2 j (hab.2.2 j hj)⟩
  answers op a reply b hb := hb.1
  named a stamp b c process d htime hprocess := by
    have hs : stamp = (writers i).stamp := htime.2
    have hp : process = (writers i).process := hprocess.2
    rw [hs, hp, Writer.temporary]
  own t a b ht hr := by rw [ht]; exact hr.1
  stable a b ha hr := hr.2.1 ha
  settled a b ha hr := ⟨hr.2.1 ha.1, hr.1.trans ha.2.1, hr.2.2 i ha.2.2⟩
  idle a _ := ⟨fun _ _ => rfl, id, fun _ => id⟩
  works t a b ha ht _ hothers := by
    subst ht
    have hkeeps : Keeps writers initial a b := h.keeps_works hothers
    exact ⟨hkeeps.1 ha, fun j hj => hothers _ (h.temporary_ne hj), hkeeps⟩
  installs t mode a b ha ht hmode _ hb := by
    subst ht
    have hkeeps := h.keeps_installs hmode hb
    obtain ⟨htemp, hself, hothers⟩ := h.installs_files hb
    refine ⟨⟨hkeeps.1 ha, htemp, i, mode, rfl, hself, hmode⟩, fun j hj => ?_, hkeeps⟩
    exact hothers _ (Ne.symm (h.path_ne i j)) (h.temporary_ne hj)
  masks granted := .inr ⟨granted, rfl⟩
  existing a file ha hfile := by
    rcases ha (writers i).path (h.path_ne i) with heq | ⟨j, mode, -, heq, hmode⟩
    · exact .inl ⟨file, heq ▸ hfile, rfl⟩
    · rw [hfile] at heq
      cases heq
      exact hmode

variable [DecidableEq ι]

/-- Any number of writers, in any order of their steps, whatever fails and whoever is killed in the
middle: at every moment every file but the temporary ones is as it was at the start or one writer's whole
content for it, with the mode the file had or one that only its owner can use. A writer that reported
success has left no temporary file, and its file is replaced for good. -/
theorem replaced_whole (h : Apart writers) {pool : Prog.Pool ι Op.Reply (Except IoError Unit) World}
    (hrun : Relation.ReflTransGen (Prog.Pool.Step fun i => (writers i).Answers)
      ⟨initial, fun i => some (write (writers i).path (writers i).content)⟩ pool) :
    Whole writers initial pool.state ∧ ∀ i, pool.programs i = some (.ret (.ok ())) →
      pool.state.files (writers i).temporary = none ∧
        Replaced writers initial (writers i).path (pool.state.files (writers i).path) := by
  have hwhole : Whole writers initial initial := fun _ _ => .inl rfl
  have hstart : Prog.Pool.Safe (Relies writers initial) (Guarantees writers initial) (fun i => (writers i).Answers)
      (fun i => Outcome (Whole writers initial) (Done writers initial i))
      ⟨initial, fun i => some (write (writers i).path (writers i).content)⟩ :=
    fun i program hfound => Option.some.inj hfound ▸ (h.shelter i).write_safe hwhole
  obtain ⟨hsafe, hwhole⟩ := hstart.run (fun i => (h.shelter i).refl) (fun i => (h.shelter i).trans)
    (fun i j a b hij hg => ⟨hg.1 j (Ne.symm hij), hg.2⟩) (fun _ _ _ ha hg => hg.2.1 ha) hwhole hrun
  refine ⟨hwhole, fun i hdone => ?_⟩
  have hpost : Done writers initial i pool.state := hsafe i _ hdone _ ((h.shelter i).refl _)
  exact hpost.2

section Witness

/-- Two writers of the same file. -/
private def rivals : Bool → Writer
  | true => ⟨⟨"/state", "kaiion.json", by decide, by decide⟩, [1], 10, 100⟩
  | false => ⟨⟨"/state", "kaiion.json", by decide, by decide⟩, [2], 11, 200⟩

private theorem rivals_apart : Apart rivals where
  distinct i j hij := by cases i <;> cases j <;> simp_all [rivals]
  targets i := by
    rintro ⟨process, stamp, hext⟩
    have hjson : (rivals i).path.extension = some "json" := by cases i <;> rfl
    rw [hjson] at hext
    exact absurd (congrArg (fun text => text.toList.head?) (Option.some.inj hext)) (by simp)

private def noFiles : World := ⟨fun _ => none, fun _ => none⟩

private abbrev RivalStep : Prog.Pool Bool Op.Reply (Except IoError Unit) World →
    Prog.Pool Bool Op.Reply (Except IoError Unit) World → Prop := Prog.Pool.Step fun i => (rivals i).Answers

private def rivalPrograms (i : Bool) : Option (Sys (Except IoError Unit)) :=
  some (write (rivals i).path (rivals i).content)

/-- A writer takes its next step. -/
private theorem rival_steps {a b : Prog.Pool Bool Op.Reply (Except IoError Unit) World} {i : Bool}
    {program : Sys (Except IoError Unit)} {op : Op} {next : op.Reply → Sys (Except IoError Unit)}
    (h : Relation.ReflTransGen RivalStep a ⟨b.state, Function.update b.programs i (some program)⟩)
    (hprogram : program = .call op next) (reply : op.Reply) {state : World}
    (hanswers : (rivals i).Answers op b.state reply state) :
    Relation.ReflTransGen RivalStep a ⟨state, Function.update b.programs i (some (next reply))⟩ := by
  have hstep := h.tail (.takes i reply ((Function.update_self ..).trans (congrArg some hprogram)) hanswers)
  rwa [Function.update_idem] at hstep

/-- One writer is killed once its temporary file is written. -/
private theorem rival_killed : ∃ pool : Prog.Pool Bool Op.Reply (Except IoError Unit) World,
    Relation.ReflTransGen RivalStep ⟨noFiles, rivalPrograms⟩ pool ∧ pool.programs true = rivalPrograms true ∧
      (∀ p, p ≠ (rivals false).temporary → pool.state.files p = none) ∧
      pool.state.files (rivals false).temporary = some ⟨[2], 0o600⟩ := by
  have hstamped : Relation.ReflTransGen RivalStep ⟨noFiles, rivalPrograms⟩
      ⟨noFiles, Function.update rivalPrograms false _⟩ := .single (.takes false (.ok 200) rfl ⟨rfl, rfl⟩)
  have hnamed := @rival_steps _ ⟨noFiles, rivalPrograms⟩ _ _ _ _ hstamped rfl (11 : Nat) noFiles ⟨rfl, rfl⟩
  have hlooked := @rival_steps _ ⟨noFiles, rivalPrograms⟩ _ _ _ _ hnamed rfl (.error ⟨true, "absent"⟩) noFiles ⟨rfl, trivial⟩
  have hcreated := @rival_steps _ ⟨noFiles, rivalPrograms⟩ _ _ _ _ hlooked rfl (.ok ()) _ ⟨⟨rfl, 0o777, rfl⟩, trivial⟩
  have hwritten := @rival_steps _ ⟨_, rivalPrograms⟩ _ _ _ _ hcreated rfl (.ok ()) _ ⟨rfl, trivial⟩
  refine ⟨_, hwritten.tail (.killed false), ?_, fun p hp => ?_, ?_⟩
  · simp [Function.update_of_ne]
  · exact (World.setFile_ne hp).trans (World.setFile_ne hp)
  · exact World.setFile_self.trans (congrArg (Option.map _) World.setFile_self)

/-- One of two writers is killed with its temporary file written, the other one runs to its end. -/
theorem replaced_whole_rivals : ∃ pool : Prog.Pool Bool Op.Reply (Except IoError Unit) World,
    Relation.ReflTransGen RivalStep ⟨noFiles, rivalPrograms⟩ pool ∧ pool.programs true = some (.ret (.ok ())) ∧
      pool.state.files (rivals false).temporary = some ⟨[2], 0o600⟩ ∧
      pool.state.files (rivals true).temporary = none ∧
      Replaced rivals noFiles (rivals true).path (pool.state.files (rivals true).path) := by
  obtain ⟨killed, hkilled, hprogram, hnone, hleft⟩ := rival_killed
  have hne : (rivals true).temporary ≠ (rivals false).temporary := rivals_apart.temporary_ne (by decide)
  have htarget (i : Bool) : (rivals true).path ≠ (rivals i).temporary := rivals_apart.path_ne true i
  have halone : ∃ w, Prog.Executes (fun a b => b = a) (rivals true).Answers (write (rivals true).path (rivals true).content)
      killed.state (.ok ()) w ∧ w.files (rivals false).temporary = some ⟨[2], 0o600⟩ := by
    refine ⟨_, .call (.ok 100) rfl ⟨rfl, rfl⟩ <| .call (10 : Nat) rfl ⟨rfl, rfl⟩ <|
      .call (.error ⟨true, "absent"⟩) rfl ⟨rfl, trivial⟩ <| .call (.ok ()) rfl ⟨⟨hnone _ hne, 0o777, rfl⟩, trivial⟩ <|
      .call (.ok ()) rfl ⟨rfl, trivial⟩ <| .call (.ok ()) rfl ⟨rfl, trivial⟩ <|
      .call (.ok ()) rfl ⟨⟨?_, rfl⟩, trivial⟩ <| .ret _ rfl, ?_⟩
    · simp [World.setFile]
    · exact (World.setFile_ne (htarget false).symm).trans ((World.setFile_ne hne.symm).trans
        ((World.setFile_ne hne.symm).trans ((World.setFile_ne hne.symm).trans hleft)))
  obtain ⟨w, halone, hkept⟩ := halone
  obtain ⟨pool, hrun, hdone, hstate⟩ := halone.alone (fun i => (rivals i).Answers) rfl hprogram
  obtain ⟨-, hreturned⟩ := replaced_whole rivals_apart (hkilled.trans hrun)
  exact ⟨pool, hkilled.trans hrun, hdone, hstate ▸ hkept, hreturned true hdone⟩

end Witness

end Writers
end AtomicFile
end Kaiion.Service
