import Kaiion.Service.Supervision

/-! Every command of the service, run to its end among whatever else happens on the host, leaves the
service supervised. -/
namespace Kaiion.Service
open Foundation Proxy Scheduling

section Commands
variable {serde : Serde} {paths : LifecyclePaths} {α β : Type}

/-- An assertion the rest of the host does not invalidate. -/
def Stable (paths : LifecyclePaths) (P : World → Prop) : Prop := ∀ a b, P a → Undisturbed paths a b → P b

/-- Where a command stands when it succeeds, and when it fails. -/
def Ends {ε : Type} (E : World → Prop) (Q : α → World → Prop) : Except ε α → World → Prop
  | .ok value, w => Q value w
  | .error _, w => E w

/-- The program keeps to the assertion, whatever happens between its calls. -/
abbrev Upholds (paths : LifecyclePaths) (p : Sys α) (post : α → World → Prop) (s : World) : Prop :=
  Prog.Safe (Undisturbed paths) (fun _ _ => True) World.Answers p post s

theorem Stable.and {P Q : World → Prop} (hP : Stable paths P) (hQ : Stable paths Q) :
    Stable paths fun w => P w ∧ Q w :=
  fun a b h hr => ⟨hP a b h.1 hr, hQ a b h.2 hr⟩

theorem Stable.const (p : Prop) : Stable paths fun _ => p := fun _ _ h _ => h

theorem Stable.imp {p : Prop} {Q : World → Prop} (hQ : Stable paths Q) : Stable paths fun w => p → Q w :=
  fun a b h hr hp => hQ a b (h hp) hr

theorem stable_named (pid : Nat) : Stable paths fun w => Named paths w pid :=
  fun _ _ h hr => h.of_file hr.pidFile

theorem stable_saved (state : PersistedState) : Stable paths fun w => Saved serde paths w state :=
  fun _ _ h hr => h.of_file hr.configFile

theorem stable_noService : Stable paths NoService := fun _ _ h hr => hr.noService h

theorem stable_supervised : Stable paths (Supervised serde paths) := fun _ _ h hr => hr.supervised h

theorem stable_ended (pid : Nat) : Stable paths fun w => w.service pid = none := fun _ _ h hr => hr.ended h

theorem stable_file {path : Path} (hown : paths.Own path) (p : Option File → Prop) :
    Stable paths fun w => p (w.files path) :=
  fun _ b h hr => show p (b.files path) from (hr.files path hown).symm ▸ h

section Rules
variable {E : World → Prop} {M : α → World → Prop} {Q : β → World → Prop} {s : World}

theorem Upholds.andThen (hE : Stable paths E) {p : Command α} {f : α → Command β} (hp : Upholds paths p.run (Ends E M) s)
    (hf : ∀ value w, M value w → Upholds paths (f value).run (Ends E Q) w) : Upholds paths (p >>= f).run (Ends E Q) s := by
  refine Prog.Safe.bind (.refl paths) (Prog.Safe.mono hp fun result w hw => ?_)
  cases result with
  | ok value => exact hf value w hw
  | error error => exact fun u hu => hE w u hw hu

theorem Upholds.lifted {p : Sys α} {f : α → Command β} (hp : Upholds paths p M s)
    (hf : ∀ value w, M value w → Upholds paths (f value).run (Ends E Q) w) :
    Upholds paths ((ExceptT.lift p : Command α) >>= f).run (Ends E Q) s :=
  Prog.Safe.lifted (.refl paths) (fun _ _ _ => .trans) (Prog.Safe.mono hp hf)

theorem Upholds.last {p : Sys α} (hM : ∀ value, Stable paths (M value)) (hp : Upholds paths p M s) :
    Upholds paths (ExceptT.lift p : Command α).run (Ends E M) s :=
  Prog.Safe.bind (.refl paths) (Prog.Safe.mono hp fun value w hw u hu => hM value w u hw hu)

theorem Upholds.fails (hE : Stable paths E) {message : String} (h : E s) :
    Upholds paths (throw message : Command β).run (Ends E Q) s := fun w hw => hE s w h hw

theorem Upholds.returns (hM : ∀ value, Stable paths (M value)) {value : α} (h : M value s) :
    Upholds paths (pure value : Command α).run (Ends E M) s := fun w hw => hM value s w h hw

/-- A call that leaves the commands' own files alone, with what its reply tells. -/
theorem Upholds.quiet {P : World → Prop} (hP : Stable paths P) (op : Op) (hop : paths.Quiet op) {R : op.Reply → World → Prop}
    (hR : ∀ reply, Stable paths (R reply)) (h : P s) (hreply : ∀ a reply b, World.Answers op a reply b → R reply b) :
    Upholds paths (perform op) (fun reply w => P w ∧ R reply w) s :=
  Prog.Safe.performed P h hP (fun reply => hP.and (hR reply)) fun a reply b ha hb =>
    ⟨trivial, hP a b ha (hop.undisturbed hb), hreply a reply b hb⟩

/-- A program of such calls. -/
theorem Upholds.uses {P : World → Prop} (hP : Stable paths P) {p : Sys α} (hp : Prog.Uses paths.Quiet p) (h : P s) :
    Upholds paths p (fun _ => P) s :=
  hp.safe (fun _ _ _ _ hop hb => ⟨trivial, hop.undisturbed hb⟩) hP h

theorem Upholds.attempted (hE : Stable paths E) (hM : ∀ value, Stable paths (M value)) {action : String}
    {call : Sys (Except IoError α)} (hcall : Upholds paths call (Ends E M) s) :
    Upholds paths (attempt action call).run (Ends E M) s := by
  refine Prog.Safe.bind (.refl paths) (Prog.Safe.mono hcall fun reply w hw u hu => ?_)
  cases reply with
  | ok value => exact hM value w u hw hu
  | error error => exact hE w u hw hu

/-- A program of quiet calls that may fail. -/
theorem Upholds.usesCommand {ε : Type} {P : World → Prop} (hP : Stable paths P) (hPE : ∀ w, P w → E w)
    {p : Prog.Fallible Op.Reply ε α} (hp : Prog.Uses paths.Quiet p.run) (h : P s) :
    Upholds paths p.run (Ends E fun _ => P) s := by
  refine Prog.Safe.mono (Upholds.uses hP hp h) fun result w hw => ?_
  cases result with
  | ok => exact hw
  | error => exact hPE w hw

theorem Upholds.attempt (hE : Stable paths E) {P : World → Prop} (hP : Stable paths P) (hPE : ∀ w, P w → E w)
    {action : String}
    {call : Sys (Except IoError α)} (hcall : Prog.Uses paths.Quiet call) (h : P s) :
    Upholds paths (attempt action call).run (Ends E fun _ => P) s :=
  Upholds.attempted hE (fun _ => hP) (Upholds.usesCommand hP hPE hcall h)

end Rules

section Looking
variable {P : World → Prop} {s : World}

/-- What reading the PID file tells. -/
def PidRead (paths : LifecyclePaths) : Option Nat → World → Prop
  | some pid, w => Named paths w pid
  | none, w => w.files paths.pidFile = none

/-- What reading the configuration file tells. -/
def StateRead (serde : Serde) (paths : LifecyclePaths) : Option PersistedState → World → Prop
  | some state, w => Saved serde paths w state
  | none, w => w.files paths.configFile = none

theorem stable_pidRead (named : Option Nat) : Stable paths (PidRead paths named) := by
  cases named with
  | some pid => exact stable_named pid
  | none => exact stable_file (.inl rfl) (fun file => file = none)

theorem stable_stateRead (saved : Option PersistedState) : Stable paths (StateRead serde paths saved) := by
  cases saved with
  | some state => exact stable_saved state
  | none => exact stable_file (.inr (.inl rfl)) (fun file => file = none)

/-- What reading a file of the service tells. -/
private theorem reads (hP : Stable paths P) {path : Path} (hown : paths.Own path) (h : P s) :
    Upholds paths (perform (.readToString path)) (fun reply w => P w ∧ match reply with
      | .ok text => w.Reads path text
      | .error error => error.notFound = true → w.files path = none) s := by
  refine Upholds.quiet hP (.readToString path) trivial (fun reply => ?_) h fun a reply b hb => ?_
  · cases reply with
    | ok text => exact stable_file hown (fun file => file.map File.content = some (utf8 text))
    | error error => exact (stable_file hown (fun file => file = none)).imp
  · cases reply with
    | ok text =>
      obtain ⟨rfl, hreads⟩ := hb
      exact hreads
    | error error =>
      obtain ⟨rfl, hfound⟩ := hb
      exact hfound.mp

theorem readPid_upholds {E : World → Prop} (hE : Stable paths E) (hP : Stable paths P) (hPE : ∀ w, P w → E w) (h : P s) :
    Upholds paths (readPid paths.pidFile).run (Ends E fun named w => P w ∧ PidRead paths named w) s := by
  refine Upholds.lifted (reads hP (.inl rfl) h) fun reply w hw => ?_
  have hstable (named : Option Nat) := hP.and (stable_pidRead named)
  cases reply with
  | ok text =>
    cases hparse : parsePid text with
    | none =>
      dsimp only
      rw [hparse]
      exact Upholds.fails hE (hPE w hw.1)
    | some pid =>
      dsimp only
      rw [hparse]
      exact Upholds.returns hstable ⟨hw.1, text, hw.2, hparse⟩
  | error error =>
    dsimp only
    split
    next hfound => exact Upholds.returns hstable ⟨hw.1, hw.2 hfound⟩
    next => exact Upholds.fails hE (hPE w hw.1)

theorem loadState_upholds {E : World → Prop} (hE : Stable paths E) (hP : Stable paths P) (hPE : ∀ w, P w → E w) (h : P s) :
    Upholds paths (loadState serde paths).run (Ends E fun saved w => P w ∧ StateRead serde paths saved w) s := by
  refine Upholds.lifted (reads hP (.inr (.inl rfl)) h) fun reply w hw => ?_
  have hstable (saved : Option PersistedState) : Stable paths fun w => P w ∧ StateRead serde paths saved w :=
    hP.and (stable_stateRead saved)
  cases reply with
  | ok text =>
    cases hparse : serde.deserialize text with
    | error =>
      dsimp only
      rw [hparse]
      exact Upholds.fails hE (hPE w hw.1)
    | ok state =>
      dsimp only
      rw [hparse]
      exact Upholds.returns hstable ⟨hw.1, text, hw.2, hparse⟩
  | error error =>
    dsimp only
    split
    next hfound => exact Upholds.returns hstable ⟨hw.1, hw.2 hfound⟩
    next => exact Upholds.fails hE (hPE w hw.1)

theorem processAlive_upholds (hP : Stable paths P) (pid : Nat) (h : P s) :
    Upholds paths (processAlive pid) (fun alive w => P w ∧ (alive = false → w.service pid = none)) s := by
  have hended {w : World} (hnone : (w.processes pid).isSome = false) : w.service pid = none := by
    rw [World.service, Option.isSome_eq_false_iff.mp hnone |> Option.isNone_iff_eq_none.mp]
    rfl
  refine Prog.Safe.bind (.refl paths) (Prog.Safe.mono (Upholds.quiet hP (.kill pid none) trivial
    (R := fun (reply : Except OsError Unit) w => ∀ error, reply = .error error → error.errno ≠ .eperm → w.service pid = none)
    (fun reply => fun a b ha hr error hreply hne => hr.ended (ha error hreply hne)) h ?_) ?_)
  · rintro a reply b ⟨rfl, hreply⟩ error rfl hne
    exact hended (by simpa [hne] using hreply)
  · rintro reply w ⟨hw, hreply⟩
    cases reply with
    | ok => exact fun u hu => ⟨hP w u hw hu, fun he => nomatch he⟩
    | error error =>
      intro u hu
      refine ⟨hP w u hw hu, fun he => hu.ended (hreply error rfl ?_)⟩
      simpa using he

end Looking

private theorem quietly (op : Op) (h : paths.Quiet op) : Prog.Uses paths.Quiet (perform op) := Prog.Uses.performs op h

theorem processAlive_uses (pid : Nat) : Prog.Uses paths.Quiet (processAlive pid) := by
  refine .bind (quietly (.kill pid none) trivial) fun reply => ?_
  cases reply <;> exact trivial

theorem isOwnedProcess_uses (pid : Nat) : Prog.Uses paths.Quiet (isOwnedProcess pid) := by
  refine .bind (quietly (.currentExe) trivial) fun reply => ?_
  cases reply with
  | error => exact trivial
  | ok executable =>
    refine .bind (quietly (.readLink pid) trivial) fun reply => ?_
    cases reply <;> exact trivial

theorem terminatePid_uses (pid : Nat) (force : Bool) : Prog.Uses paths.Quiet (terminatePid pid force) := by
  refine .bind (quietly (.kill pid _) trivial) fun reply => ?_
  cases reply <;> exact trivial

theorem refuseForeign_uses (pid : Nat) : Prog.Uses paths.Quiet (refuseForeign paths pid).run := by
  refine .andThen (.lifted (processAlive_uses pid)) fun alive => ?_
  cases alive with
  | false => exact trivial
  | true =>
    refine .andThen (.lifted (isOwnedProcess_uses pid)) fun owned => ?_
    cases owned <;> exact trivial

theorem awaitExit_uses (pid : Nat) (deadline since : Instant) : Prog.Uses paths.Quiet (awaitExit pid deadline since) := by
  induction hk : deadline - since using Nat.strong_induction_on generalizing since with
  | _ k ih =>
    rw [awaitExit]
    refine .bind (processAlive_uses pid) fun alive => ?_
    cases alive with
    | false => exact trivial
    | true =>
      refine .bind (quietly (.now since) trivial) fun now => ?_
      split
      next hlt =>
        refine .bind (quietly (.sleep _ _) trivial) fun woken => ?_
        exact ih _ (hk ▸ later_lt now.2 hlt woken.2) _ rfl
      next => exact trivial

theorem waitForReady_uses (child : Nat) (readyFile : Path) (listen : String) (deadline since : Instant) :
    Prog.Uses paths.Quiet (waitForReady child readyFile listen deadline since) := by
  induction hk : deadline - since using Nat.strong_induction_on generalizing since with
  | _ k ih =>
    rw [waitForReady]
    refine .bind (quietly (.now since) trivial) fun now => ?_
    split
    next hlt =>
      refine .bind (quietly (.tryWait child) trivial) fun exited => ?_
      split
      · exact trivial
      · refine .bind (.bind (quietly (.exist readyFile) trivial) fun ready => ?_) fun healthy => ?_
        · cases ready
          · exact trivial
          · exact quietly (.health listen) trivial
        · cases healthy with
          | true => exact trivial
          | false =>
            refine .bind (quietly (.sleep _ _) trivial) fun woken => ?_
            exact ih _ (hk ▸ later_lt now.2 hlt woken.2) _ rfl
    next => exact trivial

theorem running_uses (pid : Option Nat) : Prog.Uses paths.Quiet (running pid) := by
  cases pid with
  | none => exact trivial
  | some pid =>
    refine .bind (processAlive_uses pid) fun alive => ?_
    cases alive with
    | false => exact trivial
    | true => exact isOwnedProcess_uses pid

theorem readPid_uses (paths : LifecyclePaths) : Prog.Uses paths.Quiet (readPid paths.pidFile).run := by
  refine .andThen (.lifted (quietly (.readToString _) trivial)) fun reply => ?_
  cases reply with
  | ok text =>
    dsimp only
    split <;> exact trivial
  | error error =>
    dsimp only
    split <;> exact trivial

theorem loadState_uses (serde : Serde) (paths : LifecyclePaths) : Prog.Uses paths.Quiet (loadState serde paths).run := by
  refine .andThen (.lifted (quietly (.readToString _) trivial)) fun reply => ?_
  cases reply with
  | ok text =>
    dsimp only
    split <;> exact trivial
  | error error =>
    dsimp only
    split <;> exact trivial

theorem awaitGone_uses (pid seconds : Nat) : Prog.Uses paths.Quiet (awaitGone pid seconds) :=
  .bind (quietly (.now 0) trivial) fun _ => awaitExit_uses _ _ _

theorem remove_uses (action : String) {path : Path} (h : ¬ paths.Own path) :
    Prog.Uses paths.Quiet (remove action path).run := by
  refine .andThen (.lifted (quietly (.removeFile path) h)) fun reply => ?_
  cases reply with
  | ok => exact trivial
  | error error =>
    dsimp only
    split <;> exact trivial

theorem ensurePrivateDirectory_uses (directory : String) : Prog.Uses paths.Quiet (ensurePrivateDirectory directory) :=
  .andThen (quietly (.createDirAll directory) trivial) fun _ => quietly (.setDirectoryPermissions _ _) trivial

section Changing
variable {P E : World → Prop} {s : World}

theorem discard_upholds (hP : Stable paths P) (child : Nat) (h : P s) :
    Upholds paths (discard child) (fun _ w => P w ∧ w.service child = none) s := by
  refine Prog.Safe.bind (.refl paths) (Prog.Safe.mono (Upholds.uses hP (terminatePid_uses child true) h) fun _ w hw => ?_)
  refine Upholds.quiet hP (.wait child) trivial (fun _ => stable_ended child) hw fun a _ b hb => ?_
  obtain ⟨rfl, hended⟩ := hb
  exact hended

/-- The PID file goes, and nothing else. -/
theorem removePid_upholds (hE : Stable paths E) (hP : Stable paths P) (hPE : ∀ w, P w → E w)
    (hset : ∀ w, P w → P (w.setFile paths.pidFile none)) (h : P s) :
    Upholds paths (removePid paths.pidFile).run (Ends E fun _ w => P w ∧ w.files paths.pidFile = none) s := by
  have habsent : Stable paths fun w => w.files paths.pidFile = none := stable_file (.inl rfl) (fun file => file = none)
  have hcall : Upholds paths (perform (.removeFile paths.pidFile)) (fun reply w => P w ∧
      ((∃ error : IoError, reply = .error error ∧ error.notFound = false) ∨ w.files paths.pidFile = none)) s := by
    refine Prog.Safe.performed P h hP (fun reply => hP.and fun a b ha hr => ha.imp id fun hn => habsent a b hn hr) ?_
    intro a reply b ha hb
    cases reply with
    | ok =>
      obtain ⟨-, rfl⟩ := hb
      exact ⟨trivial, hset a ha, .inr World.setFile_self⟩
    | error error =>
      obtain ⟨rfl, hfound⟩ := hb
      refine ⟨trivial, ha, ?_⟩
      cases hnotFound : error.notFound with
      | true => exact .inr (hfound hnotFound)
      | false => exact .inl ⟨error, rfl, hnotFound⟩
  refine Upholds.lifted hcall fun reply w hw => ?_
  obtain ⟨hw, hreply⟩ := hw
  have hstable : ∀ _ : Unit, Stable paths fun w => P w ∧ w.files paths.pidFile = none := fun _ => hP.and habsent
  cases reply with
  | ok =>
    rcases hreply with ⟨_, he, -⟩ | hnone
    · cases he
    · exact Upholds.returns hstable ⟨hw, hnone⟩
  | error error =>
    dsimp only
    split
    next hfound =>
      rcases hreply with ⟨_, he, hnotFound⟩ | hnone
      · cases he
        rw [hfound] at hnotFound
        cases hnotFound
      · exact Upholds.returns hstable ⟨hw, hnone⟩
    next => exact Upholds.fails hE (hPE w hw)

theorem removeReady_upholds (apart : paths.Apart) (hP : Stable paths P) (hPE : ∀ w, P w → E w) (h : P s) :
    Upholds paths (removeIfExists paths.readyFile).run (Ends E fun _ => P) s :=
  Upholds.usesCommand hP hPE (remove_uses _ apart.ready) h

/-- One of the commands' own files is replaced. -/
theorem attemptWrite_upholds (hE : Stable paths E) (hP : Stable paths P) (hPE : ∀ w, P w → E w) {Q : World → Prop}
    (hQ : Stable paths Q) {path : Path} {content : List UInt8} {action : String}
    (works : ∀ a b, P a → b.processes = a.processes → (∀ p, ¬ AtomicFile.Temporary p → b.files p = a.files p) → P b)
    (installs : ∀ a b mode, P a → b.processes = a.processes → b.files path = some ⟨content, mode⟩ →
      (∀ p, ¬ AtomicFile.Temporary p → p ≠ path → b.files p = a.files p) → Q b) (h : P s) :
    Upholds paths (attempt action (AtomicFile.write path content)).run (Ends E fun _ => Q) s := by
  have hshelter : AtomicFile.Shelter (Undisturbed paths) (fun _ _ => True) World.Answers path content
      AtomicFile.Temporary (fun _ => True) P Q := by
    refine ⟨.refl paths, fun _ _ _ => .trans, fun _ _ _ _ => id, fun _ _ _ _ _ _ _ _ => AtomicFile.temporary_temporary ..,
      fun t a b ht hr => hr.files t (.inr (.inr ht)), hP, hQ, fun _ _ => trivial, fun t a b ha ht hprocesses hothers => ?_,
      fun t mode a b ha ht _ _ hb => ?_, fun _ => trivial, fun _ _ _ _ => trivial⟩
    · exact ⟨works a b ha hprocesses fun p hp => hothers p fun he => hp (he ▸ ht), trivial⟩
    · subst hb
      refine ⟨installs a _ mode ha rfl World.setFile_self fun p hp hne => ?_, trivial⟩
      exact (World.setFile_ne hne).trans (World.setFile_ne fun he => hp (he ▸ ht))
  refine Upholds.attempted hE (fun _ => hQ) (Prog.Safe.mono (hshelter.write_safe h) fun reply w hw => ?_)
  cases reply with
  | ok => exact hw
  | error => exact hPE w hw

end Changing

section Lifecycle
variable (apart : paths.Apart) (roundTrips : serde.RoundTrips) (keep : Prop) (state : PersistedState)

/-- The configuration file holds the state, if it is one to be kept. -/
def Keeps (serde : Serde) (paths : LifecyclePaths) (keep : Prop) (state : PersistedState) (w : World) : Prop :=
  keep → Saved serde paths w state

/-- What every command starts from and comes back to. -/
def Sound (serde : Serde) (paths : LifecyclePaths) (keep : Prop) (state : PersistedState) (w : World) : Prop :=
  Supervised serde paths w ∧ Keeps serde paths keep state w

/-- The same with no service running. -/
def Idle (serde : Serde) (paths : LifecyclePaths) (keep : Prop) (state : PersistedState) (w : World) : Prop :=
  NoService w ∧ Keeps serde paths keep state w

/-- The only service that can be running is this child. -/
def Child (serde : Serde) (paths : LifecyclePaths) (state : PersistedState) (child : Nat) (w : World) : Prop :=
  Saved serde paths w state ∧ ∀ pid launch, w.service pid = some launch → pid = child ∧ Launched paths state launch

theorem stable_keeps : Stable paths (Keeps serde paths keep state) := (stable_saved state).imp

theorem stable_sound : Stable paths (Sound serde paths keep state) := stable_supervised.and (stable_keeps keep state)

theorem stable_idle : Stable paths (Idle serde paths keep state) := stable_noService.and (stable_keeps keep state)

theorem stable_child (child : Nat) : Stable paths (Child serde paths state child) :=
  (stable_saved state).and fun _ _ h hr pid launch hs => h pid launch (hr.services pid launch hs)

variable {keep state} {s w : World}

theorem Idle.sound (h : Idle serde paths keep state w) : Sound serde paths keep state w := ⟨h.1.supervised, h.2⟩

theorem Child.idle {child : Nat} (h : Child serde paths state child w) (hended : w.service child = none) :
    Idle serde paths keep state w := by
  refine ⟨fun pid => ?_, fun _ => h.1⟩
  cases hs : w.service pid with
  | none => rfl
  | some launch =>
    obtain ⟨rfl, -⟩ := h.2 pid launch hs
    rw [hs] at hended
    cases hended

/-- A child that the PID file names is supervised. -/
theorem Child.sound {child : Nat} (h : Child serde paths state child w) (hnamed : Named paths w child) :
    Sound serde paths keep state w := by
  refine ⟨fun pid launch hs => ?_, fun _ => h.1⟩
  obtain ⟨rfl, hlaunched⟩ := h.2 pid launch hs
  exact ⟨hnamed, state, h.1, hlaunched⟩

theorem Sound.idle (h : Sound serde paths keep state w) (hnamed : ∀ pid, Named paths w pid → w.service pid = none) :
    Idle serde paths keep state w := ⟨h.1.noService hnamed, h.2⟩

include apart in
theorem Idle.setPid (h : Idle serde paths keep state w) (file : Option File) :
    Idle serde paths keep state (w.setFile paths.pidFile file) :=
  ⟨fun pid => h.1 pid, fun hk => (h.2 hk).of_file (World.setFile_ne apart.pid_config.symm)⟩

theorem not_named (h : w.files paths.pidFile = none) (pid : Nat) : ¬ Named paths w pid := by
  rintro ⟨text, hreads, -⟩
  rw [World.Reads, h] at hreads
  cases hreads

theorem NoService.same (h : NoService s) (hprocesses : w.processes = s.processes) : NoService w := by
  intro pid
  rw [World.service, hprocesses]
  exact h pid

include apart

theorem clearStale_upholds {named : Option Nat} (h : Sound serde paths keep state s ∧ PidRead paths named s) :
    Upholds paths (clearStale paths named).run
      (Ends (Sound serde paths keep state) fun _ => Idle serde paths keep state) s := by
  have hE : Stable paths (Sound serde paths keep state) := stable_sound keep state
  cases named with
  | none => exact Upholds.returns (fun _ => stable_idle keep state) (h.1.idle fun pid hn => absurd hn (not_named h.2 pid))
  | some pid =>
    have hM := hE.and (stable_named pid)
    refine Upholds.andThen hE (Upholds.usesCommand hM (fun _ hw => hw.1) (refuseForeign_uses pid) h) fun _ w hw => ?_
    refine Upholds.lifted (processAlive_upholds hM pid hw) fun alive w hw => ?_
    cases alive with
    | true => exact Upholds.fails hE hw.1.1
    | false =>
      have hidle : Idle serde paths keep state w := hw.1.1.idle fun other hother => by
        rw [hother.unique hw.1.2]
        exact hw.2 rfl
      refine Prog.Safe.mono (removePid_upholds hE (stable_idle keep state) (fun _ => Idle.sound)
        (fun w hw => hw.setPid apart none) hidle) fun result w hw => ?_
      cases result with
      | ok => exact hw.1
      | error => exact hw

include roundTrips in
theorem writeState_upholds (h : Idle serde paths keep state s) : Upholds paths (writeState serde paths state).run
    (Ends (Sound serde paths keep state) fun _ w => NoService w ∧ Saved serde paths w state) s := by
  have hE : Stable paths (Sound serde paths keep state) := stable_sound keep state
  unfold writeState
  split
  · exact Upholds.fails hE h.sound
  next content hcontent =>
    refine attemptWrite_upholds hE (stable_idle keep state) (fun _ => Idle.sound)
      (stable_noService.and (stable_saved state)) (fun a b ha hprocesses hothers => ?_)
      (fun a b mode ha hprocesses hfile hothers => ?_) h
    · exact ⟨ha.1.same hprocesses, fun hk => (ha.2 hk).of_file (hothers _ apart.config)⟩
    · exact ⟨ha.1.same hprocesses, content ++ "\n", congrArg (Option.map File.content) hfile,
        roundTrips state content hcontent⟩

theorem spawnService_upholds (h : NoService s ∧ Saved serde paths s state) :
    Upholds paths (spawnService paths state).run
      (Ends (Sound serde paths keep state) fun child w => Child serde paths state child w ∧ validPid child = true) s := by
  have hE : Stable paths (Sound serde paths keep state) := stable_sound keep state
  have hP : Stable paths fun w => NoService w ∧ Saved serde paths w state := stable_noService.and (stable_saved state)
  have hPE (w : World) (hw : NoService w ∧ Saved serde paths w state) : Sound serde paths keep state w :=
    ⟨hw.1.supervised, fun _ => hw.2⟩
  refine Upholds.andThen hE (Upholds.attempt hE hP hPE (quietly (.openAppend _) apart.log) h) fun _ w hw => ?_
  refine Upholds.andThen hE (Upholds.attempt hE hP hPE (quietly (.tryClone _) trivial) hw) fun _ w hw => ?_
  refine Upholds.andThen hE (Upholds.attempt hE hP hPE (quietly .currentExe trivial) hw) fun executable w hw => ?_
  have hC (child : Nat) : Stable paths fun w => Child serde paths state child w ∧ validPid child = true :=
    (stable_child state child).and (.const _)
  refine Upholds.attempted hE hC (Prog.Safe.performed (fun w => NoService w ∧ Saved serde paths w state) hw hP
    (fun reply => ?_) fun a reply b ha hb => ⟨trivial, ?_⟩)
  · cases reply with
    | ok child => exact hC child
    | error => exact hE
  · cases reply with
    | error => exact hb ▸ hPE a ha
    | ok child =>
      obtain ⟨-, hpos, hlt, rfl⟩ := hb
      refine ⟨⟨ha.2.of_file rfl, fun pid launch hs => ?_⟩, by simp [validPid]; omega⟩
      by_cases hpid : pid = child
      · subst hpid
        rw [World.setProcess_self] at hs
        exact ⟨rfl, executable, (Option.some.inj hs).symm⟩
      · rw [World.setProcess_ne hpid, ha.1 pid] at hs
        cases hs

theorem registerService_upholds {child : Nat} (hvalid : validPid child = true) (h : Child serde paths state child s) :
    Upholds paths (registerService paths child).run
      (Ends (Sound serde paths keep state) fun _ w => Child serde paths state child w ∧ Named paths w child) s := by
  have hE : Stable paths (Sound serde paths keep state) := stable_sound keep state
  have hP : Stable paths (Child serde paths state child) := stable_child state child
  have hQ := hP.and (stable_named child)
  have hkept {a b : World} (ha : Child serde paths state child a) (hprocesses : b.processes = a.processes)
      (hfile : b.files paths.configFile = a.files paths.configFile) : Child serde paths state child b :=
    ⟨ha.1.of_file hfile, fun pid launch hs => ha.2 pid launch (by rw [World.service, ← hprocesses]; exact hs)⟩
  have hwrite : Upholds paths (writePid paths.pidFile child).run (Ends (Child serde paths state child) fun _ w =>
      Child serde paths state child w ∧ Named paths w child) s := by
    refine attemptWrite_upholds hP hP (fun _ => id) hQ (fun a b ha hprocesses hothers => ?_)
      (fun a b mode ha hprocesses hfile hothers => ?_) h
    · exact hkept ha hprocesses (hothers _ apart.config)
    · refine ⟨hkept ha hprocesses (hothers _ apart.config apart.pid_config.symm), pidText child,
        congrArg (Option.map File.content) hfile, ?_⟩
      have hlt : child < 2 ^ 32 := by
        unfold validPid at hvalid
        simp only [Bool.and_eq_true, decide_eq_true_eq] at hvalid
        omega
      rw [parsePid_pidText child hlt, if_pos hvalid]
  refine Upholds.lifted hwrite fun reply w hw => ?_
  cases reply with
  | ok => exact Upholds.returns (fun _ => hQ) hw
  | error error =>
    refine Upholds.lifted (discard_upholds hP child hw) fun _ w hw => ?_
    exact Upholds.fails hE (hw.1.idle hw.2).sound

variable (keep) in
theorem awaitService_upholds {config : Config} {child : Nat}
    (h : Child serde paths state child s ∧ Named paths s child) :
    Upholds paths (awaitService paths config child).run
      (Ends (Sound serde paths keep state) fun _ w => Child serde paths state child w ∧ Named paths w child) s := by
  have hE : Stable paths (Sound serde paths keep state) := stable_sound keep state
  have hchild : Stable paths (Child serde paths state child) := stable_child state child
  have hP := hchild.and (stable_named child)
  have hI : Stable paths (Idle serde paths keep state) := stable_idle keep state
  refine Upholds.lifted (Upholds.uses hP (quietly (.now 0) trivial) h) fun start w hw => ?_
  refine Upholds.lifted (Upholds.uses hP (waitForReady_uses _ _ _ _ _) hw) fun ready w hw => ?_
  cases ready with
  | true => exact Upholds.last (fun _ => hP) (Upholds.uses hP (quietly (.print _) trivial) hw)
  | false =>
    refine Upholds.lifted (discard_upholds hP child hw) fun _ w hw => ?_
    refine Upholds.andThen hE (removePid_upholds hE hI (fun _ => Idle.sound) (fun w hw => hw.setPid apart none)
      (hw.1.1.idle hw.2)) fun _ w hw => ?_
    refine Upholds.andThen hE (removeReady_upholds apart hI (fun _ => Idle.sound) hw.1) fun _ w hw => ?_
    exact Upholds.fails hE hw.sound

/-- The only service that can be running was started from this state, and the PID file names it. -/
def Started (serde : Serde) (paths : LifecyclePaths) (state : PersistedState) (w : World) : Prop :=
  ∃ child, Child serde paths state child w ∧ Named paths w child

omit apart in
private theorem prepare_upholds (action : String) {call : Sys (Except IoError Unit)} (hcall : Prog.Uses paths.Quiet call)
    (h : Sound serde paths keep state s) : Upholds paths (attempt action call).run
      (Ends (Sound serde paths keep state) fun _ => Sound serde paths keep state) s :=
  Upholds.attempt (stable_sound keep state) (stable_sound keep state) (fun _ => id) hcall h

omit apart in
private theorem ensureParent_upholds (path : Path) (h : Sound serde paths keep state s) :
    Upholds paths (ensureParent path).run
      (Ends (Sound serde paths keep state) fun _ => Sound serde paths keep state) s := by
  unfold ensureParent
  split
  · exact Upholds.returns (fun _ => stable_sound keep state) h
  · exact prepare_upholds _ (quietly (.createDirAll _) trivial) h

variable (keep) in
include roundTrips in
/-- A start that succeeds leaves its own child as the only service, under the state it was given. -/
theorem startAt_upholds (h : Sound serde paths keep state s) : Upholds paths (startAt serde paths state).run
    (Ends (Sound serde paths keep state) fun _ => Started serde paths state) s := by
  have hE : Stable paths (Sound serde paths keep state) := stable_sound keep state
  have hI : Stable paths (Idle serde paths keep state) := stable_idle keep state
  refine Upholds.andThen hE (prepare_upholds _ (ensurePrivateDirectory_uses _) h) fun _ w hw => ?_
  refine Upholds.andThen hE (prepare_upholds _ (ensurePrivateDirectory_uses _) hw) fun _ w hw => ?_
  refine Upholds.andThen hE (ensureParent_upholds _ hw) fun _ w hw => ?_
  refine Upholds.andThen hE (ensureParent_upholds _ hw) fun _ w hw => ?_
  refine Upholds.andThen hE (ensureParent_upholds _ hw) fun _ w hw => ?_
  refine Upholds.andThen hE (readPid_upholds hE hE (fun _ => id) hw) fun named w hw => ?_
  refine Upholds.andThen hE (clearStale_upholds apart hw) fun _ w hw => ?_
  refine Upholds.andThen hE (removeReady_upholds apart hI (fun _ => Idle.sound) hw) fun _ w hw => ?_
  refine Upholds.andThen hE (writeState_upholds apart roundTrips hw) fun _ w hw => ?_
  refine Upholds.andThen hE (spawnService_upholds apart hw) fun child w hw => ?_
  refine Upholds.andThen hE (registerService_upholds apart hw.2 hw.1) fun _ w hw => ?_
  refine Prog.Safe.mono (awaitService_upholds apart keep hw) fun result w hw => ?_
  cases result with
  | ok => exact ⟨child, hw⟩
  | error => exact hw

include roundTrips in
theorem start_upholds (config : Config) (h : Supervised serde paths s) : Upholds paths (start serde paths config).run
    (Ends (Supervised serde paths) fun _ w => ∃ workingDirectory, Started serde paths ⟨config, workingDirectory⟩ w) s := by
  refine Upholds.andThen stable_supervised (Upholds.attempt stable_supervised stable_supervised (fun _ => id)
    (quietly .currentDir trivial) h) fun workingDirectory w hw => ?_
  refine Prog.Safe.mono (startAt_upholds apart roundTrips False ⟨hw, False.elim⟩) fun result w hw => ?_
  cases result with
  | ok => exact ⟨workingDirectory, hw⟩
  | error => exact hw.1

omit apart in
private theorem killLate_upholds {pid : Nat} {force late : Bool}
    (h : Sound serde paths keep state s ∧ Named paths s pid) :
    Upholds paths (killLate pid force late).run (Ends (Sound serde paths keep state)
      fun _ w => Sound serde paths keep state w ∧ Named paths w pid) s := by
  have hE : Stable paths (Sound serde paths keep state) := stable_sound keep state
  have hM := hE.and (stable_named pid)
  cases late with
  | false => exact Upholds.returns (fun _ => hM) h
  | true =>
    cases force with
    | true => exact Upholds.fails hE h.1
    | false =>
      refine Upholds.lifted (Upholds.uses hM (terminatePid_uses pid true) h) fun terminated w hw => ?_
      cases terminated with
      | error => exact Upholds.fails hE hw.1
      | ok => exact Upholds.last (fun _ => hM) (Upholds.uses hM (awaitGone_uses pid 2) hw)

omit apart in
theorem awaitStopped_upholds {pid : Nat} {force : Bool} (h : Sound serde paths keep state s ∧ Named paths s pid) :
    Upholds paths (awaitStopped pid force).run (Ends (Sound serde paths keep state)
      fun _ w => (Sound serde paths keep state w ∧ Named paths w pid) ∧ w.service pid = none) s := by
  have hE : Stable paths (Sound serde paths keep state) := stable_sound keep state
  have hM := hE.and (stable_named pid)
  refine Upholds.lifted (Upholds.uses hM (awaitGone_uses pid _) h) fun _ w hw => ?_
  refine Upholds.lifted (Upholds.uses hM (processAlive_uses pid) hw) fun late w hw => ?_
  refine Upholds.andThen hE (killLate_upholds hw) fun _ w hw => ?_
  refine Upholds.lifted (processAlive_upholds hM pid hw) fun alive w hw => ?_
  cases alive with
  | true => exact Upholds.fails hE hw.1.1
  | false => exact Upholds.returns (fun _ => hM.and (stable_ended pid)) ⟨hw.1, hw.2 rfl⟩

variable (keep state) in
/-- A stop that succeeds leaves no service and no PID file. -/
theorem stop_upholds (force : Bool) (h : Sound serde paths keep state s) : Upholds paths (stop paths force).run
    (Ends (Sound serde paths keep state) fun _ w => Idle serde paths keep state w ∧ w.files paths.pidFile = none) s := by
  have hE : Stable paths (Sound serde paths keep state) := stable_sound keep state
  have hI : Stable paths (Idle serde paths keep state) := stable_idle keep state
  have hQ := hI.and (stable_file (.inl rfl) (fun file => file = none))
  have hforget {line : String} {w : World} (hw : Idle serde paths keep state w) : Upholds paths (forget paths line).run
      (Ends (Sound serde paths keep state) fun _ w => Idle serde paths keep state w ∧ w.files paths.pidFile = none) w := by
    refine Upholds.andThen hE (removePid_upholds hE hI (fun _ => Idle.sound) (fun w hw => hw.setPid apart none) hw)
      fun _ w hw => ?_
    refine Upholds.andThen hE (removeReady_upholds apart hQ (fun _ hw => hw.1.sound) hw) fun _ w hw => ?_
    exact Upholds.last (fun _ => hQ) (Upholds.uses hQ (quietly (.print _) trivial) hw)
  refine Upholds.andThen hE (readPid_upholds hE hE (fun _ => id) h) fun named w hw => ?_
  cases named with
  | none =>
    have hidle := hw.1.idle fun pid hn => absurd hn (not_named hw.2 pid)
    exact Upholds.last (fun _ => hQ) (Upholds.uses hQ (quietly (.print _) trivial) ⟨hidle, hw.2⟩)
  | some pid =>
    have hM := hE.and (stable_named pid)
    have hgone {w : World} (hw : Sound serde paths keep state w ∧ Named paths w pid) (hended : w.service pid = none) :
        Idle serde paths keep state w := hw.1.idle fun other hother => by rw [hother.unique hw.2, hended]
    refine Upholds.andThen hE (Upholds.usesCommand hM (fun _ hw => hw.1) (refuseForeign_uses pid) hw) fun _ w hw => ?_
    refine Upholds.lifted (processAlive_upholds hM pid hw) fun alive w hw => ?_
    cases alive with
    | false => exact hforget (hgone hw.1 (hw.2 rfl))
    | true =>
      refine Upholds.lifted (Upholds.uses hM (terminatePid_uses pid force) hw.1) fun terminated w hw => ?_
      cases terminated with
      | error => exact Upholds.fails hE hw.1
      | ok =>
        refine Upholds.andThen hE (awaitStopped_upholds hw) fun _ w hw => ?_
        exact hforget (hgone hw.1 hw.2)

omit apart in
theorem Started.sound (h : Started serde paths state w) : Sound serde paths keep state w := by
  obtain ⟨child, hchild, hnamed⟩ := h
  exact hchild.sound hnamed

include roundTrips in
/-- A restart brings back what was saved. -/
theorem restart_upholds (config : Config) (force : Bool) (h : Sound serde paths keep state s) :
    Upholds paths (restart serde paths config force).run (Ends (Sound serde paths keep state)
      fun _ w => Sound serde paths keep state w ∧ ∃ state, Started serde paths state w) s := by
  have hE : Stable paths (Sound serde paths keep state) := stable_sound keep state
  refine Upholds.andThen hE (loadState_upholds hE hE (fun _ => id) h) fun saved w hw => ?_
  cases saved with
  | some saved =>
    have hback {w' : World} (hw' : Sound serde paths True saved w') : Sound serde paths keep state w' :=
      ⟨hw'.1, fun hk => (hw.1.2 hk).unique hw.2 ▸ hw'.2 trivial⟩
    refine Upholds.andThen (M := fun _ w => Sound serde paths True saved w) hE (Prog.Safe.mono
      (stop_upholds apart True saved force ⟨hw.1.1, fun _ => hw.2⟩) fun result w hw => ?_) fun _ w hw => ?_
    · cases result with
      | ok => exact hw.1.sound
      | error => exact hback hw
    · refine Prog.Safe.mono (startAt_upholds apart roundTrips True hw) fun result w hw => ?_
      cases result with
      | ok => exact ⟨hback hw.sound, saved, hw⟩
      | error => exact hback hw
  | none =>
    have hback {w' : World} (hw' : Supervised serde paths w') : Sound serde paths keep state w' := by
      refine ⟨hw', fun hk => ?_⟩
      obtain ⟨text, hreads, -⟩ := hw.1.2 hk
      have hnone : w.files paths.configFile = none := hw.2
      rw [World.Reads, hnone] at hreads
      cases hreads
    refine Upholds.andThen (M := fun _ w => Supervised serde paths w) hE (Prog.Safe.mono
      (stop_upholds apart False state force ⟨hw.1.1, False.elim⟩) fun result w hw => ?_) fun _ w hw => ?_
    · cases result with
      | ok => exact hw.1.1.supervised
      | error => exact hback hw.1
    · refine Prog.Safe.mono (start_upholds apart roundTrips config hw) fun result w hw => ?_
      cases result with
      | ok =>
        obtain ⟨workingDirectory, hstarted⟩ := hw
        have hsound : Sound serde paths False ⟨config, workingDirectory⟩ w := hstarted.sound
        exact ⟨hback hsound.1, _, hstarted⟩
      | error => exact hback hw

omit apart in
theorem status_uses (config : Config) (json : Bool) : Prog.Uses paths.Quiet (status serde paths config json).run := by
  refine .andThen (loadState_uses serde paths) fun saved => ?_
  refine .andThen (readPid_uses paths) fun pid => ?_
  refine .andThen (.lifted (running_uses pid)) fun running => ?_
  refine .andThen (.lifted ?_) fun healthy => .lifted (quietly (.print _) trivial)
  cases running with
  | true => exact quietly (.health _) trivial
  | false => exact trivial

end Lifecycle
end Commands
end Kaiion.Service
