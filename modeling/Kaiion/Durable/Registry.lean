import Kaiion.Durable.Progress
import Kaiion.Durable.RowMachine

/-! The worker registry of one process: which worker a job has, and what the receivers it handed out
show. A worker's channel has the worker's number. -/
namespace Kaiion.Durable
open Foundation

/-- A receiver of a job's states, on a worker's channel or on one whose sender is gone already. -/
inductive Receiver where
  | live (id : JobId) (worker : Nat)
  | closed (id : JobId) (state : JobState)

def Receiver.id : Receiver → JobId
  | .live id _ | .closed id _ => id

/-- The worker that writes to the receiver's channel. -/
def Receiver.worker : Receiver → Option Nat
  | .live _ worker => some worker
  | .closed _ _ => none

/-- What `borrow` shows. -/
def Receiver.borrow (s : World) : Receiver → Option JobState
  | .live _ worker => (published worker s.log).head?
  | .closed _ state => some state

/-- `entries` is the locked map, `returned` the tasks whose worker has returned and which have not yet
removed their entry, and `receivers` all that were ever handed out. -/
structure Registry where
  fleet : Fleet
  entries : JobId → Option Nat
  returned : List (Nat × JobId)
  receivers : List Receiver

namespace Registry

/-- A worker of the job is running, or its task has still to clean up. -/
def Task (registry : Registry) (w : Nat) (id : JobId) : Prop :=
  (∃ worker, registry.fleet.workers w = some worker ∧ worker.job.id = id) ∨ (w, id) ∈ registry.returned

/-- A new worker on the job, on a channel of its own. -/
def start (c : Codec) (fleet : Fleet) (auth : UpstreamAuth) (requestBody : Value) (job : Job) : Fleet :=
  { fleet with
    world := ⟨fleet.world.db, .subscribed fleet.nextWorker job :: fleet.world.log⟩
    workers := fleet.setWorker fleet.nextWorker (some (.turn c auth requestBody job))
    nextWorker := fleet.nextWorker + 1 }

/-- `WorkerRegistry::subscribe`. -/
def subscribe (c : Codec) (registry : Registry) (auth : UpstreamAuth) (requestBody : Value) (job : Job) : Registry :=
  if job.state.isTerminal then { registry with receivers := .closed job.id job.state :: registry.receivers }
  else match registry.entries job.id with
    | some worker => { registry with receivers := .live job.id worker :: registry.receivers }
    | none => { registry with
        fleet := start c registry.fleet auth requestBody job
        entries := fun id => if id = job.id then some registry.fleet.nextWorker else registry.entries id
        receivers := .live job.id registry.fleet.nextWorker :: registry.receivers }

/-- The worker's task goes on to its clean-up. -/
def stop (registry : Registry) (w : Nat) (id : JobId) : Registry := { registry with
  fleet := { registry.fleet with workers := registry.fleet.setWorker w none }
  returned := (w, id) :: registry.returned }

/-- The clean-up at the end of a worker's task. -/
def remove (registry : Registry) (w : Nat) (id : JobId) : Registry := { registry with
  entries := fun other => if other = id then none else registry.entries other
  returned := registry.returned.erase (w, id) }

/-- No worker starts and none returns. -/
def Keeps (fleet fleet' : Fleet) : Prop :=
  fleet'.nextWorker = fleet.nextWorker ∧ ∀ w, (fleet'.workers w).isSome = (fleet.workers w).isSome

inductive Step (c : Codec) : Registry → Registry → Prop where
  /-- A handler reads or registers a job, or a worker takes a step. -/
  | runs (registry : Registry) (fleet : Fleet) (step : Fleet.Step c registry.fleet fleet)
      (keeps : Keeps registry.fleet fleet) : Step c registry { registry with fleet }
  | subscribes (registry : Registry) (auth : UpstreamAuth) (requestBody : Value) (job : Job)
      (held : job ∈ registry.fleet.copies) : Step c registry (registry.subscribe c auth requestBody job)
  | returns (registry : Registry) (w : Nat) (worker : Worker) (found : registry.fleet.workers w = some worker)
      (done : worker.phase = .settling (.ret .stop)) : Step c registry (registry.stop w worker.job.id)
  | removes (registry : Registry) (w : Nat) (id : JobId) (task : (w, id) ∈ registry.returned) :
      Step c registry (registry.remove w id)

/-- A process that has just opened its store. -/
structure Initial (registry : Registry) : Prop where
  fleet : registry.fleet.Initial
  entries : registry.entries = fun _ => none
  returned : registry.returned = []
  receivers : registry.receivers = []

abbrev Run (c : Codec) : Registry → Registry → Prop := Relation.ReflTransGen (Step c)

/-- The map holds exactly the tasks, returned workers have left their job finished, and a receiver's
channel is one of a task or shows how the job ended. -/
structure Sound (c : Codec) (registry : Registry) : Prop where
  fleet : registry.fleet.Sound c
  entries : ∀ id w, registry.entries id = some w ↔ registry.Task w id
  idle : ∀ w id, (w, id) ∈ registry.returned → registry.fleet.workers w = none ∧ w < registry.fleet.nextWorker
  once : registry.returned.Nodup
  finished : ∀ w id, (w, id) ∈ registry.returned → Finished c w id registry.fleet.world
  opened : ∀ id w, .live id w ∈ registry.receivers → w < registry.fleet.nextWorker ∧
    (registry.Task w id ∨ registry.fleet.workers w = none ∧ Finished c w id registry.fleet.world)
  closed : ∀ id state, .closed id state ∈ registry.receivers →
    state.isTerminal = true ∧ Reached c id state registry.fleet.world

end Registry

section Fleet
variable {c : Codec} {fleet fleet' : Fleet}

theorem Fleet.Step.grows (h : Fleet.Step c fleet fleet') : ∃ events, fleet'.world.log = events ++ fleet.world.log := by
  cases h with
  | enqueue | subscribe | perform => exact ⟨[_], rfl⟩
  | _ => exact ⟨[], rfl⟩

/-- Nothing a worker that is not there relies on changes. -/
theorem Fleet.Step.rely_idle (h : Fleet.Step c fleet fleet') (hs : fleet.Sound c) {w : Nat}
    (hidle : fleet.workers w = none) (hlt : w < fleet.nextWorker) : Rely w fleet.world fleet'.world := by
  have hwellFormed := (h.sound hs).wellFormed
  have hforward := h.forward hs
  cases h with
  | enqueue uuid authHash provider request fault fresh db committed =>
    exact ⟨hforward, fun _ => hwellFormed, [_], rfl, fun event hevent => by
      rw [List.mem_singleton.mp hevent]; exact fun h => nomatch h⟩
  | subscribe auth requestBody job held live =>
    refine ⟨hforward, id, [_], rfl, fun event hevent he => ?_⟩
    rw [List.mem_singleton.mp hevent] at he
    exact absurd (Option.some.inj he) (Nat.ne_of_gt hlt)
  | perform other worker op reply phase db found takes answers =>
    refine ⟨hforward, fun _ => hwellFormed, [_], rfl, fun event hevent he => ?_⟩
    rw [List.mem_singleton.mp hevent] at he
    rw [← Option.some.inj he, found] at hidle
    cases hidle
  | _ => exact Rely.refl w _

private theorem setWorker_cases {w other : Nat} {worker : Option Worker} {found : Worker}
    (h : fleet.setWorker w worker other = some found) :
    other = w ∧ worker = some found ∨ fleet.workers other = some found := by
  unfold Fleet.setWorker at h
  split at h
  next heq => exact .inl ⟨heq, h⟩
  · exact .inr h

/-- A worker keeps its job. -/
theorem Fleet.Step.job_id (h : Fleet.Step c fleet fleet') (hs : fleet.Sound c) (hkeeps : Registry.Keeps fleet fleet')
    {w : Nat} {worker' : Worker} (hfound : fleet'.workers w = some worker') :
    ∃ worker, fleet.workers w = some worker ∧ worker.job.id = worker'.job.id := by
  cases h with
  | enqueue | read => exact ⟨worker', hfound, rfl⟩
  | subscribe auth requestBody job held live => exact absurd hkeeps.1 (Nat.succ_ne_self _)
  | perform other worker op reply phase db found takes answers =>
    rcases setWorker_cases hfound with ⟨rfl, heq⟩ | hsame
    · cases heq
      exact ⟨worker, found, rfl⟩
    · exact ⟨worker', hsame, rfl⟩
  | advanced other worker result found done =>
    rcases setWorker_cases hfound with ⟨rfl, heq⟩ | hsame
    · cases heq
      exact ⟨worker, found, rfl⟩
    · exact ⟨worker', hsame, rfl⟩
  | looped other worker job found done =>
    rcases setWorker_cases hfound with ⟨rfl, heq⟩ | hsame
    · cases heq
      obtain ⟨-, -, hsettled⟩ := hs.workers w worker found
      rw [done] at hsettled
      have hturn : Settled c w worker.job.id (.again job) fleet.world := Prog.Safe.result (Rely.refl w) hsettled
      exact ⟨worker, found, hturn.1.symm⟩
    · exact ⟨worker', hsame, rfl⟩
  | stopped other worker found done =>
    rcases setWorker_cases hfound with ⟨-, heq⟩ | hsame
    · cases heq
    · exact ⟨worker', hsame, rfl⟩
  | crash => cases hfound

end Fleet

namespace Registry
variable {c : Codec} {registry registry' : Registry}

/-- The tasks are the same after a step in which no worker starts or returns. -/
theorem Sound.task_iff (h : registry.Sound c) {fleet : Fleet} (hstep : Fleet.Step c registry.fleet fleet)
    (hkeeps : Keeps registry.fleet fleet) (w : Nat) (id : JobId) :
    Task { registry with fleet } w id ↔ registry.Task w id := by
  refine or_congr_left ⟨fun ⟨worker', hfound, hid⟩ => ?_, fun ⟨worker, hfound, hid⟩ => ?_⟩
  · obtain ⟨worker, hworker, hsame⟩ := hstep.job_id h.fleet hkeeps hfound
    exact ⟨worker, hworker, hsame.trans hid⟩
  · obtain ⟨worker', hworker'⟩ := Option.isSome_iff_exists.mp ((hkeeps.2 w).trans (by rw [hfound]; rfl))
    obtain ⟨old, hold, hsame⟩ := hstep.job_id h.fleet hkeeps hworker'
    rw [hfound] at hold
    exact ⟨worker', hworker', by rw [← hsame, ← Option.some.inj hold, hid]⟩

/-- A worker that is not there stays away. -/
theorem Keeps.idle {fleet fleet' : Fleet} (h : Keeps fleet fleet') {w : Nat} (hidle : fleet.workers w = none) :
    fleet'.workers w = none := by
  have hnone := h.2 w
  rw [hidle] at hnone
  exact Option.isNone_iff_eq_none.mp (by simpa using hnone)

theorem Sound.runs (h : registry.Sound c) {fleet : Fleet} (hstep : Fleet.Step c registry.fleet fleet)
    (hkeeps : Keeps registry.fleet fleet) : Sound c { registry with fleet } where
  fleet := hstep.sound h.fleet
  entries id w := (h.entries id w).trans (h.task_iff hstep hkeeps w id).symm
  idle w id htask := ⟨hkeeps.idle (h.idle w id htask).1, by rw [hkeeps.1]; exact (h.idle w id htask).2⟩
  once := h.once
  finished w id htask :=
    (h.finished w id htask).rely (hstep.rely_idle h.fleet (h.idle w id htask).1 (h.idle w id htask).2)
  opened id w hreceiver := by
    obtain ⟨hlt, hshown⟩ := h.opened id w hreceiver
    refine ⟨by rw [hkeeps.1]; exact hlt, hshown.imp (h.task_iff hstep hkeeps w id).mpr fun ⟨hidle, hfinished⟩ => ?_⟩
    exact ⟨hkeeps.idle hidle, hfinished.rely (hstep.rely_idle h.fleet hidle hlt)⟩
  closed id state hreceiver := by
    obtain ⟨hterminal, hreached⟩ := h.closed id state hreceiver
    exact ⟨hterminal, hreached.mono (hstep.forward h.fleet) hstep.grows⟩

/-- A new receiver, for whom nothing else changes. -/
theorem Sound.hand (h : registry.Sound c) (receiver : Receiver)
    (hopen : ∀ id w, receiver = .live id w → registry.Task w id)
    (hclosed : ∀ id state, receiver = .closed id state → state.isTerminal = true ∧ Reached c id state registry.fleet.world) :
    Sound c { registry with receivers := receiver :: registry.receivers } where
  fleet := h.fleet
  entries := h.entries
  idle := h.idle
  once := h.once
  finished := h.finished
  opened id w hreceiver := by
    rcases List.mem_cons.mp hreceiver with heq | hreceiver
    · have htask := hopen id w heq.symm
      refine ⟨?_, .inl htask⟩
      rcases htask with ⟨worker, hworker, -⟩ | hreturned
      · exact (h.fleet.workers w worker hworker).1
      · exact (h.idle w id hreturned).2
    · exact h.opened id w hreceiver
  closed id state hreceiver := by
    rcases List.mem_cons.mp hreceiver with heq | hreceiver
    · exact hclosed id state heq.symm
    · exact h.closed id state hreceiver

/-- A new worker is a new task. -/
theorem Sound.task_start (h : registry.Sound c) (auth : UpstreamAuth) (requestBody : Value) (job : Job) (w : Nat)
    (id : JobId) : Task { registry with fleet := start c registry.fleet auth requestBody job } w id ↔
      (w = registry.fleet.nextWorker ∧ id = job.id) ∨ registry.Task w id := by
  constructor
  · rintro (⟨worker, hfound, hid⟩ | hreturned)
    · rcases setWorker_cases hfound with ⟨heq, hworker⟩ | hold
      · cases hworker
        exact .inl ⟨heq, hid.symm⟩
      · exact .inr (.inl ⟨worker, hold, hid⟩)
    · exact .inr (.inr hreturned)
  · rintro (⟨rfl, rfl⟩ | ⟨worker, hfound, hid⟩ | hreturned)
    · exact .inl ⟨.turn c auth requestBody job, if_pos rfl, rfl⟩
    · have hne : w ≠ registry.fleet.nextWorker := Nat.ne_of_lt (h.fleet.workers w worker hfound).1
      exact .inl ⟨worker, (if_neg hne).trans hfound, hid⟩
    · exact .inr hreturned

/-- A job without an entry gets its one task. -/
theorem Sound.started (h : registry.Sound c) (auth : UpstreamAuth) (requestBody : Value) {job : Job}
    (held : job ∈ registry.fleet.copies) (live : job.state.isTerminal = false) (hnone : registry.entries job.id = none) :
    Sound c { registry with
      fleet := start c registry.fleet auth requestBody job
      entries := fun id => if id = job.id then some registry.fleet.nextWorker else registry.entries id } := by
  have hstep : Fleet.Step c registry.fleet (start c registry.fleet auth requestBody job) :=
    .subscribe registry.fleet auth requestBody job held live
  have hstill : ∀ w, registry.fleet.workers w = none → w < registry.fleet.nextWorker →
      (start c registry.fleet auth requestBody job).workers w = none :=
    fun w hidle hlt => (if_neg (Nat.ne_of_lt hlt)).trans hidle
  refine ⟨hstep.sound h.fleet, fun id w => ?_, fun w id hreturned => ?_, h.once, fun w id hreturned => ?_,
    fun id w hreceiver => ?_, fun id state hreceiver => ?_⟩
  · refine Iff.trans ?_ (h.task_start auth requestBody job w id).symm
    dsimp only
    split
    next heq =>
      subst heq
      have hfree : ¬ registry.Task w job.id := fun htask => by
        rw [(h.entries job.id w).mpr htask] at hnone
        cases hnone
      simp [hfree, eq_comm]
    next hne => simp [hne, h.entries id w]
  · obtain ⟨hidle, hlt⟩ := h.idle w id hreturned
    exact ⟨hstill w hidle hlt, Nat.lt_succ_of_lt hlt⟩
  · obtain ⟨hidle, hlt⟩ := h.idle w id hreturned
    exact (h.finished w id hreturned).rely (hstep.rely_idle h.fleet hidle hlt)
  · obtain ⟨hlt, hshown⟩ := h.opened id w hreceiver
    refine ⟨Nat.lt_succ_of_lt hlt, hshown.imp (fun htask => (h.task_start auth requestBody job w id).mpr (.inr htask)) ?_⟩
    exact fun ⟨hidle, hfinished⟩ => ⟨hstill w hidle hlt, hfinished.rely (hstep.rely_idle h.fleet hidle hlt)⟩
  · obtain ⟨hterminal, hreached⟩ := h.closed id state hreceiver
    exact ⟨hterminal, hreached.mono (hstep.forward h.fleet) hstep.grows⟩

theorem Sound.subscribe (h : registry.Sound c) (auth : UpstreamAuth) (requestBody : Value) {job : Job}
    (held : job ∈ registry.fleet.copies) : (registry.subscribe c auth requestBody job).Sound c := by
  unfold Registry.subscribe
  split
  next hterminal =>
    refine h.hand _ (fun _ _ heq => nomatch heq) fun id state heq => ?_
    cases heq
    exact ⟨hterminal, h.fleet.copies job held⟩
  next hlive =>
    split
    next w hentry =>
      refine h.hand _ (fun id other heq => ?_) (fun _ _ heq => nomatch heq)
      cases heq
      exact (h.entries job.id w).mp hentry
    next hnone =>
      refine (h.started auth requestBody held (Bool.eq_false_iff.mpr hlive) hnone).hand _ (fun id other heq => ?_)
        (fun _ _ heq => nomatch heq)
      cases heq
      exact (h.task_start auth requestBody job _ _).mpr (.inl ⟨rfl, rfl⟩)

/-- The worker of a stopping task has announced how its job ended. -/
theorem Sound.stop (h : registry.Sound c) {w : Nat} {worker : Worker} (found : registry.fleet.workers w = some worker)
    (done : worker.phase = .settling (.ret .stop)) : (registry.stop w worker.job.id).Sound c := by
  have hstep : Fleet.Step c registry.fleet { registry.fleet with workers := registry.fleet.setWorker w none } :=
    .stopped registry.fleet w worker found done
  have hfinished : Finished c w worker.job.id registry.fleet.world := h.fleet.announced.returned w worker found done
  have htask : ∀ other id, (registry.stop w worker.job.id).Task other id ↔ registry.Task other id := by
    intro other id
    constructor
    · rintro (⟨running, hfound, hid⟩ | hreturned)
      · rcases setWorker_cases hfound with ⟨-, heq⟩ | hold
        · cases heq
        · exact .inl ⟨running, hold, hid⟩
      · rcases List.mem_cons.mp hreturned with heq | hold
        · cases heq
          exact .inl ⟨worker, found, rfl⟩
        · exact .inr hold
    · rintro (⟨running, hfound, hid⟩ | hreturned)
      · by_cases heq : other = w
        · subst heq
          rw [found] at hfound
          cases hfound
          exact .inr (hid ▸ List.mem_cons_self)
        · exact .inl ⟨running, (if_neg heq).trans hfound, hid⟩
      · exact .inr (List.mem_cons_of_mem _ hreturned)
  have hstill : ∀ other, registry.fleet.workers other = none → registry.fleet.setWorker w none other = none := by
    intro other hidle
    unfold Fleet.setWorker
    split
    · rfl
    · exact hidle
  refine ⟨hstep.sound h.fleet, fun id other => (h.entries id other).trans (htask other id).symm, ?_, ?_, ?_, ?_, h.closed⟩
  · intro other id hreturned
    rcases List.mem_cons.mp hreturned with heq | hold
    · cases heq
      exact ⟨if_pos rfl, (h.fleet.workers w worker found).1⟩
    · exact ⟨hstill other (h.idle other id hold).1, (h.idle other id hold).2⟩
  · refine List.nodup_cons.mpr ⟨fun hold => ?_, h.once⟩
    rw [(h.idle w worker.job.id hold).1] at found
    cases found
  · intro other id hreturned
    rcases List.mem_cons.mp hreturned with heq | hold
    · cases heq
      exact hfinished
    · exact h.finished other id hold
  · intro id other hreceiver
    obtain ⟨hlt, hshown⟩ := h.opened id other hreceiver
    exact ⟨hlt, hshown.imp (htask other id).mpr fun ⟨hidle, hended⟩ => ⟨hstill other hidle, hended⟩⟩

/-- A clean-up removes the entry of its own task. -/
theorem Sound.remove (h : registry.Sound c) {w : Nat} {id : JobId} (task : (w, id) ∈ registry.returned) :
    (registry.remove w id).Sound c := by
  have hunique : ∀ other, registry.Task other id → other = w := fun other htask =>
    Option.some.inj (((h.entries id other).mpr htask).symm.trans ((h.entries id w).mpr (.inr task)))
  have htask : ∀ other job, (registry.remove w id).Task other job ↔ registry.Task other job ∧ job ≠ id := by
    intro other job
    constructor
    · rintro (⟨worker, hfound, hid⟩ | hreturned)
      · refine ⟨.inl ⟨worker, hfound, hid⟩, fun heq => ?_⟩
        rw [hunique other (.inl ⟨worker, hfound, hid.trans heq⟩)] at hfound
        have hfound : registry.fleet.workers w = some worker := hfound
        rw [(h.idle w id task).1] at hfound
        cases hfound
      · obtain ⟨hne, hold⟩ := h.once.mem_erase_iff.mp hreturned
        refine ⟨.inr hold, fun heq => hne ?_⟩
        rw [heq] at hold ⊢
        rw [hunique other (.inr hold)]
    · rintro ⟨hrunning | hreturned, hne⟩
      · exact .inl hrunning
      · exact .inr (h.once.mem_erase_iff.mpr ⟨fun heq => hne (Prod.mk.inj heq).2, hreturned⟩)
  refine ⟨h.fleet, fun job other => ?_, fun other job hreturned => h.idle other job (List.mem_of_mem_erase hreturned),
    h.once.erase _, fun other job hreturned => h.finished other job (List.mem_of_mem_erase hreturned),
    fun job other hreceiver => ?_, h.closed⟩
  · refine Iff.trans ?_ (htask other job).symm
    show (if job = id then none else registry.entries job) = some other ↔ _
    split
    next heq => exact ⟨fun h => (nomatch h), fun h => absurd heq h.2⟩
    next hne => exact (h.entries job other).trans ⟨fun htask => ⟨htask, hne⟩, fun h => h.1⟩
  · obtain ⟨hlt, hshown⟩ := h.opened job other hreceiver
    refine ⟨hlt, ?_⟩
    rcases hshown with hold | hended
    · by_cases heq : job = id
      · subst heq
        rw [hunique other hold]
        exact .inr ⟨(h.idle w job task).1, h.finished w job task⟩
      · exact .inl ((htask other job).mpr ⟨hold, heq⟩)
    · exact .inr hended

theorem Step.sound (hstep : Step c registry registry') (h : registry.Sound c) : registry'.Sound c := by
  cases hstep with
  | runs fleet step keeps => exact h.runs step keeps
  | subscribes auth requestBody job held => exact h.subscribe auth requestBody held
  | returns w worker found done => exact h.stop found done
  | removes w id task => exact h.remove task

theorem Initial.sound (h : registry.Initial) : registry.Sound c where
  fleet := h.fleet.sound
  entries id w := by
    have hworkers := h.fleet.workers
    simp [Task, h.entries, h.returned, hworkers]
  idle w id hreturned := by rw [h.returned] at hreturned; cases hreturned
  once := by rw [h.returned]; exact List.nodup_nil
  finished w id hreturned := by rw [h.returned] at hreturned; cases hreturned
  opened id w hreceiver := by rw [h.receivers] at hreceiver; cases hreceiver
  closed id state hreceiver := by rw [h.receivers] at hreceiver; cases hreceiver

theorem Run.sound (hrun : Run c registry registry') (h : registry.Sound c) : registry'.Sound c := by
  induction hrun with
  | refl => exact h
  | tail _ hstep ih => exact hstep.sound ih

/-- The job is stored in this terminal state. -/
def Stored (c : Codec) (id : JobId) (state : JobState) (db : Database) : Prop :=
  state.isTerminal = true ∧ (db.get c id).map Job.state = .ok state

theorem stored_of_finished {w : Nat} {id : JobId} {s : World} (h : Finished c w id s) :
    ∃ state, (published w s.log).head? = some state ∧ Stored c id state s.db := by
  obtain ⟨state, row, hshown, hrow, hstage, hdecodes⟩ := h
  refine ⟨state, hshown, ?_, by unfold Database.get; rw [hrow]; exact hdecodes⟩
  cases htry : row.tryFrom c with
  | error error =>
    rw [htry] at hdecodes
    cases hdecodes
  | ok job =>
    rw [htry] at hdecodes
    cases hdecodes
    exact (JobState.isTerminal_iff job.state).mpr (by rw [JobState.stage, (JobRow.tryFrom_ok htry).2.2, hstage])

theorem stored_of_reached {id : JobId} {state : JobState} {s : World} (hterminal : state.isTerminal = true)
    (h : Reached c id state s) : Stored c id state s.db := by
  obtain ⟨row, hrow, -, hdecodes⟩ := h.row
  exact ⟨hterminal, by unfold Database.get; rw [hrow]; exact hdecodes hterminal⟩

/-- A receiver whose worker runs no more shows the stored terminal state. -/
theorem Sound.shows (h : registry.Sound c) {receiver : Receiver} (hreceiver : receiver ∈ registry.receivers)
    (hstopped : ∀ w, receiver.worker = some w → registry.fleet.workers w = none) :
    ∃ state, receiver.borrow registry.fleet.world = some state ∧ Stored c receiver.id state registry.fleet.world.db := by
  cases receiver with
  | live id w =>
    obtain ⟨-, htask | ⟨-, hfinished⟩⟩ := h.opened id w hreceiver
    · rcases htask with ⟨worker, hfound, -⟩ | hreturned
      · rw [hstopped w rfl] at hfound
        cases hfound
      · exact stored_of_finished (h.finished w id hreturned)
    · exact stored_of_finished hfinished
  | closed id state =>
    obtain ⟨hterminal, hreached⟩ := h.closed id state hreceiver
    exact ⟨state, rfl, stored_of_reached hterminal hreached⟩

/-- In every run of one process: a job has at most one task, a clean-up removes the entry of its own task
and no other, a terminal copy starts no worker, and a receiver shows the stored terminal state from the
moment its job's worker has stopped. -/
theorem one_worker_per_job {start registry : Registry} (hi : start.Initial) (hrun : Run c start registry) :
    (∀ id w w', registry.Task w id → registry.Task w' id → w = w') ∧
    (∀ w id, (w, id) ∈ registry.returned → registry.entries id = some w ∧
      ∀ other, other ≠ id → (registry.remove w id).entries other = registry.entries other) ∧
    (∀ auth requestBody job, job.state.isTerminal = true →
      (registry.subscribe c auth requestBody job).fleet = registry.fleet ∧
      (registry.subscribe c auth requestBody job).entries = registry.entries) ∧
    (∀ receiver ∈ registry.receivers, (∀ w, receiver.worker = some w → registry.fleet.workers w = none) →
      ∃ state, receiver.borrow registry.fleet.world = some state ∧ state.isTerminal = true ∧
        (registry.fleet.world.db.get c receiver.id).map Job.state = .ok state) := by
  have h : registry.Sound c := Run.sound hrun hi.sound
  refine ⟨fun id w w' htask htask' => ?_, fun w id hreturned =>
      ⟨(h.entries id w).mpr (.inr hreturned), fun other hne => if_neg hne⟩,
    fun auth requestBody job hterminal => ?_, fun receiver hreceiver hstopped => h.shows hreceiver hstopped⟩
  · exact Option.some.inj (((h.entries id w).mpr htask).symm.trans ((h.entries id w').mpr htask'))
  · unfold Registry.subscribe
    rw [if_pos hterminal]
    exact ⟨rfl, rfl⟩

theorem keeps_setWorker {fleet : Fleet} {w : Nat} {worker : Worker} (found : fleet.workers w = some worker)
    (world : World) (worker' : Worker) : Keeps fleet { fleet with world, workers := fleet.setWorker w (some worker') } := by
  refine ⟨rfl, fun other => ?_⟩
  show (if other = w then some worker' else fleet.workers other).isSome = _
  split
  next heq => rw [heq, found]; rfl
  · rfl

/-- A caller joins the worker that its job has. -/
theorem subscribe_live {job : Job} {w : Nat} (hentry : registry.entries job.id = some w)
    (hlive : job.state.isTerminal = false) (auth : UpstreamAuth) (requestBody : Value) :
    registry.subscribe c auth requestBody job =
      { registry with receivers := .live job.id w :: registry.receivers } := by
  unfold Registry.subscribe
  rw [hlive, if_neg Bool.false_ne_true, hentry]

/-- A worker's operation is answered. -/
theorem Step.performs {w : Nat} {worker : Worker} {op : Op} {reply : Op.Reply op} {phase : Phase} {db : Database}
    (found : registry.fleet.workers w = some worker) (takes : worker.phase.Takes op reply phase)
    (answers : op.Answers c registry.fleet.world.db reply db) :
    Step c registry { registry with fleet := { registry.fleet with
      world := ⟨db, .performed w op reply db :: registry.fleet.world.log⟩
      workers := registry.fleet.setWorker w (some { worker with phase }) } } :=
  .runs registry _ (.perform registry.fleet w worker op reply phase db found takes answers) (keeps_setWorker found _ _)

/-- A worker has stored how its job ended, over this row, has told it and has returned. -/
structure Ends (c : Codec) (w : Nat) (job : Job) (row : JobRow) (outcome : StoredOutcome) (a b : Registry) : Prop where
  run : Run c a b
  db : ∀ now, b.fleet.world.db =
    a.fleet.world.db.replace job.id ((Transition.storeOutcome job.id job.state outcome).set c now row)
  stored : b.fleet.world.db.get c job.id = .ok { job with state := .terminal outcome }
  told : published w b.fleet.world.log = .terminal outcome :: published w a.fleet.world.log
  copies : b.fleet.copies = a.fleet.copies
  entries : b.entries = a.entries
  returned : b.returned = (w, job.id) :: a.returned
  receivers : b.receivers = a.receivers

/-- A worker whose upload is refused ends its job. -/
theorem refused_upload_ends {w : Nat} {auth : UpstreamAuth} {requestBody : Value} {id : JobId} {model : String}
    {row : JobRow} (hu : registry.fleet.world.db.UniqueIds)
    (found : registry.fleet.workers w = some (.turn c auth requestBody ⟨id, model, .queued⟩))
    (hrow : registry.fleet.world.db.row? id = some row) (hencodes : row.Encodes c .queued) (hmodel : row.model = model)
    (status : StatusCode) (body : String)
    (hkeeps : c.RoundTrips (failedResponse model (ProviderError.permanentHttp status body).message)) :
    ∃ ended, Ends c w ⟨id, model, .queued⟩ row
      (.failed (failedResponse model (ProviderError.permanentHttp status body).message)) registry ended := by
  let outcome := StoredOutcome.failed (failedResponse model (ProviderError.permanentHttp status body).message)
  obtain ⟨hset, hstored⟩ := @storeOutcome_run _ _ _ _ hu _ hrow hencodes outcome hkeeps ⟨"now"⟩
  have hself (fleet : Fleet) (worker : Option Worker) : fleet.setWorker w worker w = worker := if_pos rfl
  have hrefused := Step.performs (c := c) found (@Phase.Takes.advancing (Op.uploadBatchFile auth id
    (batchLine c ⟨id, model, .queued⟩ requestBody)) _ (Except.error (.permanentHttp status body))) rfl
  have hadvanced := (Relation.ReflTransGen.single hrefused).tail (.runs _ _ (.advanced _ w _ (.error (.permanent
    (ProviderError.permanentHttp status body).message)) (hself _ _) rfl) (keeps_setWorker (hself _ _) _ _))
  have hsaved := hadvanced.tail (Step.performs (hself _ _)
    (@Phase.Takes.settling (Op.transition _) _ (.ok (.terminal outcome))) ⟨⟨"now"⟩, .none, hstored⟩)
  have hpublished := hsaved.tail (Step.performs (hself _ _)
    (@Phase.Takes.settling (Op.publish id (.terminal outcome)) _ ()) rfl)
  have hreturned := hpublished.tail (.returns _ w _ (hself _ _) rfl)
  refine ⟨_, hreturned, fun _ => rfl, ?_, ?_, rfl, rfl, rfl, rfl⟩
  · show (registry.fleet.world.db.replace id _).get c id = _
    have hfound := Database.replace_row? hrow ((Transition.set_id c ⟨"now"⟩ row (.storeOutcome id .queued outcome)).trans
      (Database.row?_id hrow))
    unfold Database.get
    rw [hfound]
    refine hset.tryFrom.trans ?_
    have hid : (⟨row.id⟩ : JobId) = id := congrArg JobId.mk (Database.row?_id hrow)
    rw [Transition.set_id, (Transition.set_identity c ⟨"now"⟩ row (.storeOutcome id .queued outcome)).2.2, hid, hmodel]
  · have hworker (op : Op) (reply : Op.Reply op) (after : Database) : Event.shownBy w (.performed w op reply after) =
        (Event.performed w op reply after).shown.map Prod.snd := if_pos rfl
    unfold published
    exact (List.filterMap_cons_some (hworker (.publish id (.terminal outcome)) () _)).trans (congrArg _
      ((List.filterMap_cons_none (hworker (.transition _) _ _)).trans
        (List.filterMap_cons_none (hworker (.uploadBatchFile _ _ _) _ _))))

section Witness

private def waiting : Job := ⟨⟨"job"⟩, "model", .queued⟩

private def waitingRow : JobRow := .queued "job" "auth" "request" "model"

private def opened : Registry :=
  ⟨⟨⟨⟨[waitingRow], []⟩, [.stored ⟨[waitingRow], []⟩]⟩, [], fun _ => none, 0⟩, fun _ => none, [], []⟩

private theorem opened_initial : opened.Initial where
  fleet := ⟨⟨by simp [opened, Database.UniqueIds], by simp [opened], by simp [opened], by simp [opened],
    by simp [opened]⟩, rfl, rfl, rfl⟩
  entries := rfl
  returned := rfl
  receivers := rfl

private def credentials : UpstreamAuth := ⟨"key", none, none⟩

/-- A handler has read the job and started its worker. -/
private noncomputable def started : Registry :=
  Registry.subscribe Json.compact { opened with fleet.copies := [waiting] } credentials .null waiting

private theorem started_run : Run Json.compact opened started :=
  (Relation.ReflTransGen.single (.runs opened _ (.read _ ⟨"job"⟩ waiting rfl) ⟨rfl, fun _ => rfl⟩)).tail
    (.subscribes _ credentials .null waiting List.mem_cons_self)

/-- The worker is refused its upload, stores that and returns; then a late caller subscribes. -/
theorem late_receiver_shows_the_outcome : ∃ registry, Run Json.compact opened registry ∧
    registry.receivers = [.live ⟨"job"⟩ 0, .live ⟨"job"⟩ 0] ∧ registry.returned = [(0, ⟨"job"⟩)] ∧
    ∃ state, (Receiver.live ⟨"job"⟩ 0).borrow registry.fleet.world = some state ∧ state.isTerminal = true := by
  have hunique : started.fleet.world.db.UniqueIds := List.nodup_singleton _
  obtain ⟨ended, hends⟩ := @refused_upload_ends Json.compact started 0 credentials .null ⟨"job"⟩ "model" waitingRow
    hunique rfl rfl ⟨rfl, rfl, rfl, rfl, rfl⟩ rfl ⟨400, "400 Bad Request"⟩ "invalid" (Json.compact_roundTrips _)
  have hlate := (started_run.trans hends.run).tail (.subscribes _ credentials .null waiting
    (hends.copies ▸ List.mem_cons_self))
  have hentry : ended.entries ⟨"job"⟩ = some 0 := by rw [hends.entries]; rfl
  rw [subscribe_live (show ended.entries waiting.id = some 0 from hentry) rfl] at hlate
  refine ⟨_, hlate, congrArg _ hends.receivers, hends.returned, ?_⟩
  have hidle : ended.fleet.workers 0 = none :=
    ((Run.sound (started_run.trans hends.run) opened_initial.sound).idle 0 ⟨"job"⟩
      (hends.returned ▸ List.mem_cons_self)).1
  obtain ⟨state, hstate, hterminal, -⟩ := (one_worker_per_job opened_initial hlate).2.2.2 (.live ⟨"job"⟩ 0)
    List.mem_cons_self (fun w hw => by cases hw; exact hidle)
  exact ⟨state, hstate, hterminal⟩

end Witness

end Registry
end Kaiion.Durable
