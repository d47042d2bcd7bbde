import Kaiion.Durable.Registration
import Kaiion.Durable.Registry
import Kaiion.Durable.StoreInvariant

/-! What receivers show, and that no job is forgotten: within one process, and across the processes that
open the same store one after another. -/
namespace Kaiion.Durable
open Foundation

theorem Database.Forward.get {c : Codec} {db db' : Database} {id : JobId} {job : Job} (h : db.Forward db')
    (hget : db.get c id = .ok job) (hterminal : job.state.isTerminal = true) : db'.get c id = .ok job := by
  unfold Database.get at hget ⊢
  cases hrow : db.row? id with
  | none =>
    rw [hrow] at hget
    cases hget
  | some row =>
    rw [hrow] at hget
    obtain ⟨row', hrow', hforward⟩ := h id row hrow
    have hstage : row.status.stage = 5 := by
      rw [← (JobRow.tryFrom_ok hget).2.2]
      exact (JobState.isTerminal_iff job.state).mp hterminal
    rw [hrow', hforward.eq_of_terminal hstage]
    exact hget

/-- The job belongs to this request of this credential. -/
def Database.Belongs (db : Database) (id : JobId) (authHash requestHash : String) : Prop :=
  ∃ row, db.row? id = some row ∧ row.authHash = authHash ∧ row.requestHash = requestHash

theorem Database.Belongs.forward {db db' : Database} {id : JobId} {authHash requestHash : String}
    (h : db.Belongs id authHash requestHash) (hf : db.Forward db') : db'.Belongs id authHash requestHash := by
  obtain ⟨row, hrow, hauth, hrequest⟩ := h
  obtain ⟨row', hrow', hsame | ⟨-, hauth', hrequest', -⟩⟩ := hf id row hrow
  · exact ⟨row', hrow', hsame ▸ hauth, hsame ▸ hrequest⟩
  · exact ⟨row', hrow', hauth'.trans hauth, hrequest'.trans hrequest⟩

/-- The job has its outcome. -/
def Database.Ended (db : Database) (id : JobId) : Prop := ∃ row, db.row? id = some row ∧ row.status.stage = 5

theorem Database.Ended.forward {db db' : Database} {id : JobId} (h : db.Ended id)
    (hf : db.Forward db') : db'.Ended id := by
  obtain ⟨row, hrow, hstage⟩ := h
  obtain ⟨row', hrow', hforward⟩ := hf id row hrow
  exact ⟨row', hrow', by rw [hforward.eq_of_terminal hstage, hstage]⟩

/-- The table once held the job like this. -/
structure Job.Past (c : Codec) (job : Job) (db : Database) : Prop where
  row : ∃ row, db.row? job.id = some row ∧ row.model = job.model ∧ job.state.stage ≤ row.status.stage
  final : job.state.isTerminal = true → db.get c job.id = .ok job

theorem Job.Past.forward {c : Codec} {job : Job} {db db' : Database} (h : job.Past c db) (hf : db.Forward db') :
    job.Past c db' := by
  obtain ⟨row, hrow, hmodel, hle⟩ := h.row
  obtain ⟨row', hrow', hforward⟩ := hf job.id row hrow
  refine ⟨⟨row', hrow', ?_, Nat.le_trans hle hforward.stage_le⟩, fun hterminal => hf.get (h.final hterminal) hterminal⟩
  rcases hforward with rfl | ⟨-, -, -, hmodel', -⟩
  · exact hmodel
  · exact hmodel'.trans hmodel

theorem Database.get_past {c : Codec} {db : Database} {id : JobId} {job : Job}
    (h : db.get c id = .ok job) : job.Past c db := by
  obtain rfl := Database.get_id h
  refine ⟨?_, fun _ => h⟩
  unfold Database.get at h
  cases hrow : db.row? job.id with
  | none =>
    rw [hrow] at h
    cases h
  | some row =>
    rw [hrow] at h
    obtain ⟨-, hmodel, hstatus⟩ := JobRow.tryFrom_ok h
    exact ⟨row, rfl, hmodel.symm, Nat.le_of_eq (congrArg Status.stage hstatus)⟩

/-- The job is no older than anything the table once held of it; what is final has not changed. -/
def Job.Since (c : Codec) (db : Database) (job : Job) : Prop := ∀ old : Job, old.id = job.id → old.Past c db →
  old.state.stage ≤ job.state.stage ∧ (old.state.isTerminal = true → job = old)

theorem Job.Since.earlier {c : Codec} {job : Job} {db db' : Database} (h : job.Since c db') (hf : db.Forward db') :
    job.Since c db := fun old hid hpast => h old hid (hpast.forward hf)

theorem Database.get_since {c : Codec} {db : Database} {id : JobId} {job : Job} (h : db.get c id = .ok job) :
    job.Since c db := by
  intro old hid hpast
  obtain rfl := Database.get_id h
  refine ⟨?_, fun hterminal => ?_⟩
  · obtain ⟨row, hrow, -, hle⟩ := hpast.row
    rw [hid] at hrow
    unfold Database.get at h
    rw [hrow] at h
    rw [show job.state.stage = row.status.stage from congrArg Status.stage (JobRow.tryFrom_ok h).2.2]
    exact hle
  · have hfinal := hpast.final hterminal
    rw [hid] at hfinal
    exact Except.ok.inj (h.symm.trans hfinal)

/-- A request has one job. -/
theorem Database.Belongs.unique {db : Database} (hw : db.WellFormed) {id id' : JobId} {authHash requestHash : String}
    (h : db.Belongs id authHash requestHash) (h' : db.Belongs id' authHash requestHash) : id = id' := by
  obtain ⟨row, hrow, hauth, hrequest⟩ := h
  obtain ⟨row', hrow', hauth', hrequest'⟩ := h'
  have hsame := hw.id_unique (Database.row?_mem hrow) (Database.row?_mem hrow')
    (hauth.trans hauth'.symm) (hrequest.trans hrequest'.symm)
  subst hsame
  have hid : id.text = id'.text := (Database.row?_id hrow).symm.trans (Database.row?_id hrow')
  cases id
  cases id'
  exact congrArg JobId.mk hid

/-- Only a finished row holds an outcome. -/
theorem JobRow.stage_of_check {c : Codec} {row : JobRow} (h : row.check c = true)
    (houtcome : row.outcomeJson.isSome = true) : row.status.stage = 5 := by
  unfold JobRow.check at h
  cases hstatus : row.status
  case completed | failed | incomplete | expired | cancelled => rfl
  all_goals
    rw [Option.isSome_iff_ne_none] at houtcome
    simp [hstatus, houtcome] at h

/-- What the steps of a fleet do to the tables are steps of the store. -/
theorem Fleet.Step.stores {c : Codec} {fleet fleet' : Fleet} (h : Fleet.Step c fleet fleet') :
    Relation.ReflTransGen (StoreStep c) fleet.world.db fleet'.world.db := by
  cases h with
  | enqueue uuid authHash provider request fault fresh db committed =>
    rw [← committed]
    exact .single (.enqueue _ uuid authHash provider request fault fresh)
  | perform w worker op reply phase db found takes answers =>
    cases op with
    | transition t =>
      obtain ⟨now, fault, hfault⟩ := answers
      have hdb : (fault.apply PersistenceError.database fleet.world.db (t.run c now fleet.world.db)).1 = db :=
        congrArg Prod.fst hfault
      rw [← hdb]
      exact .single (.transition _ t now fault)
    | get id =>
      obtain ⟨rfl, -⟩ := answers
      exact .refl
    | _ =>
      cases answers
      exact .refl
  | _ => exact .refl

namespace Registry
variable {c : Codec} {registry registry' : Registry}

theorem Stored.forward {id : JobId} {state : JobState} {db db' : Database} (h : Stored c id state db)
    (hf : db.Forward db') : Stored c id state db' := by
  obtain ⟨hterminal, hget⟩ := h
  refine ⟨hterminal, ?_⟩
  cases hjob : db.get c id with
  | error error =>
    rw [hjob] at hget
    cases hget
  | ok job =>
    rw [hjob] at hget
    cases hget
    rw [hf.get hjob hterminal]
    rfl

theorem Stored.ended {id : JobId} {state : JobState} {db : Database} (h : Stored c id state db) : db.Ended id := by
  obtain ⟨hterminal, hget⟩ := h
  unfold Database.get at hget
  cases hrow : db.row? id with
  | none =>
    rw [hrow] at hget
    cases hget
  | some row =>
    rw [hrow] at hget
    dsimp only at hget
    cases hdecodes : row.tryFrom c with
    | error error =>
      rw [hdecodes] at hget
      cases hget
    | ok job =>
      rw [hdecodes] at hget
      cases hget
      have hfinal := (JobState.isTerminal_iff job.state).mp hterminal
      exact ⟨row, hrow, by rw [← (JobRow.tryFrom_ok hdecodes).2.2]; exact hfinal⟩

/-- Everything but the fleet's own steps leaves the tables alone. -/
theorem Step.stores (hstep : Step c registry registry') :
    Relation.ReflTransGen (StoreStep c) registry.fleet.world.db registry'.fleet.world.db := by
  cases hstep with
  | runs fleet step keeps => exact step.stores
  | subscribes auth requestBody job held =>
    unfold Registry.subscribe
    split
    · exact .refl
    · split <;> exact .refl
  | _ => exact .refl

theorem Step.forward (hstep : Step c registry registry') (h : registry.Sound c) :
    registry.fleet.world.db.Forward registry'.fleet.world.db := by
  cases hstep with
  | runs fleet step keeps => exact step.forward h.fleet
  | subscribes auth requestBody job held =>
    unfold Registry.subscribe
    split
    · exact .refl _
    · split <;> exact .refl _
  | _ => exact .refl _

theorem Step.grows (hstep : Step c registry registry') :
    ∃ events, registry'.fleet.world.log = events ++ registry.fleet.world.log := by
  cases hstep with
  | runs fleet step keeps => exact step.grows
  | subscribes auth requestBody job held =>
    unfold Registry.subscribe
    split
    · exact ⟨[], rfl⟩
    · split
      · exact ⟨[], rfl⟩
      · exact ⟨[_], rfl⟩
  | _ => exact ⟨[], rfl⟩

theorem Step.receivers_sublist (hstep : Step c registry registry') : registry.receivers ⊆ registry'.receivers := by
  cases hstep with
  | subscribes auth requestBody job held =>
    unfold Registry.subscribe
    split
    · exact List.subset_cons_self _ _
    · split <;> exact List.subset_cons_self _ _
  | _ => exact List.Subset.refl _

theorem Run.steady (hrun : Run c registry registry') :
    (∃ events, registry'.fleet.world.log = events ++ registry.fleet.world.log) ∧
      registry.receivers ⊆ registry'.receivers := by
  induction hrun with
  | refl => exact ⟨⟨[], rfl⟩, List.Subset.refl _⟩
  | tail _ hstep ih =>
    obtain ⟨⟨events, hevents⟩, hreceivers⟩ := ih
    obtain ⟨more, hmore⟩ := hstep.grows
    exact ⟨⟨more ++ events, by rw [hmore, hevents, List.append_assoc]⟩,
      List.Subset.trans hreceivers hstep.receivers_sublist⟩

/-- The process dies, and the next one opens its store. -/
def reopened (registry : Registry) : Registry where
  fleet := { registry.fleet with copies := [], workers := fun _ => none }
  entries := fun _ => none
  returned := []
  receivers := []

inductive Moves (c : Codec) : Registry → Registry → Prop where
  | step {registry registry' : Registry} (step : Step c registry registry') : Moves c registry registry'
  | reopens (registry : Registry) : Moves c registry registry.reopened

abbrev Life (c : Codec) : Registry → Registry → Prop := Relation.ReflTransGen (Moves c)

theorem Sound.reopened (h : registry.Sound c) : registry.reopened.Sound c where
  fleet := (Fleet.Step.crash registry.fleet).sound h.fleet
  entries id w := by simp [Task, Registry.reopened]
  idle _ _ hreturned := nomatch hreturned
  once := List.nodup_nil
  finished _ _ hreturned := nomatch hreturned
  opened _ _ hreceiver := nomatch hreceiver
  closed _ _ hreceiver := nomatch hreceiver

theorem Run.life (h : Run c registry registry') : Life c registry registry' := by
  induction h with
  | refl => exact .refl
  | tail _ hstep ih => exact ih.tail (.step hstep)

theorem Life.stores (h : Life c registry registry') :
    Relation.ReflTransGen (StoreStep c) registry.fleet.world.db registry'.fleet.world.db := by
  induction h with
  | refl => exact .refl
  | tail _ hmove ih =>
    cases hmove with
    | step hstep => exact ih.trans hstep.stores
    | reopens => exact ih

theorem Life.sound (h : Life c registry registry') (hs : registry.Sound c) :
    registry'.Sound c ∧ registry.fleet.world.db.Forward registry'.fleet.world.db := by
  induction h with
  | refl => exact ⟨hs, .refl _⟩
  | tail _ hmove ih =>
    cases hmove with
    | step hstep => exact ⟨hstep.sound ih.1, ih.2.trans (hstep.forward ih.1)⟩
    | reopens => exact ⟨ih.1.reopened, ih.2⟩

/-- All that the worker announces is about this job. -/
def SpeaksOf (log : List Event) (w : Nat) (id : JobId) : Prop :=
  ∀ event ∈ log, event.worker = some w → ∀ told state, event.shown = some (told, state) → told = id

/-- Every store there was moved forward to the present one, and the receivers of a job show nothing of
another. -/
structure Faithful (registry : Registry) : Prop where
  past : ∀ event ∈ registry.fleet.world.log, ∀ db, event.after = some db → db.Forward registry.fleet.world.db
  own : ∀ id w, registry.Task w id ∨ .live id w ∈ registry.receivers → SpeaksOf registry.fleet.world.log w id

/-- A worker that is there is on the job of its task and of its receivers. -/
theorem Sound.worker_job (h : registry.Sound c) {w : Nat} {id : JobId} {worker : Worker}
    (hown : registry.Task w id ∨ .live id w ∈ registry.receivers) (found : registry.fleet.workers w = some worker) :
    worker.job.id = id := by
  have hreturned : (w, id) ∉ registry.returned := by
    intro hreturned
    rw [(h.idle w id hreturned).1] at found
    cases found
  have htask : registry.Task w id → worker.job.id = id := by
    rintro (⟨running, hrunning, hid⟩ | hold)
    · rw [found] at hrunning
      cases hrunning
      exact hid
    · exact absurd hold hreturned
  rcases hown with hown | hreceiver
  · exact htask hown
  · obtain ⟨-, hold | ⟨hidle, -⟩⟩ := h.opened id w hreceiver
    · exact htask hold
    · rw [found] at hidle
      cases hidle

/-- The worker of a task or of a receiver has a number that was given. -/
theorem Sound.worker_lt (h : registry.Sound c) {w : Nat} {id : JobId}
    (hown : registry.Task w id ∨ .live id w ∈ registry.receivers) : w < registry.fleet.nextWorker := by
  rcases hown with (⟨worker, found, -⟩ | hreturned) | hreceiver
  · exact (h.fleet.workers w worker found).1
  · exact (h.idle w id hreturned).2
  · exact (h.opened id w hreceiver).1

section Steps
variable {fleet fleet' : Fleet}

theorem past_step (h : Fleet.Step c fleet fleet') (hs : fleet.Sound c)
    (hpast : ∀ event ∈ fleet.world.log, ∀ db, event.after = some db → db.Forward fleet.world.db) :
    ∀ event ∈ fleet'.world.log, ∀ db, event.after = some db → db.Forward fleet'.world.db := by
  have hforward := h.forward hs
  have hold : ∀ event ∈ fleet.world.log, ∀ db, event.after = some db → db.Forward fleet'.world.db :=
    fun event hevent db hafter => (hpast event hevent db hafter).trans hforward
  cases h with
  | enqueue | perform =>
    intro event hevent db hafter
    rcases List.mem_cons.mp hevent with rfl | hevent
    · cases hafter
      exact .refl _
    · exact hold event hevent db hafter
  | subscribe =>
    intro event hevent db hafter
    rcases List.mem_cons.mp hevent with rfl | hevent
    · cases hafter
    · exact hold event hevent db hafter
  | _ => exact hold

/-- A worker announces the states of its own job. -/
theorem SpeaksOf.step (h : Fleet.Step c fleet fleet') (hs : fleet.Sound c) (hkeeps : Keeps fleet fleet') {w : Nat}
    {id : JobId} (hjob : ∀ worker, fleet.workers w = some worker → worker.job.id = id)
    (hspeaks : SpeaksOf fleet.world.log w id) : SpeaksOf fleet'.world.log w id := by
  cases h with
  | enqueue =>
    intro event hevent hworker
    rcases List.mem_cons.mp hevent with rfl | hevent
    · cases hworker
    · exact hspeaks event hevent hworker
  | subscribe => exact absurd hkeeps.1 (Nat.succ_ne_self _)
  | perform other worker op reply phase db found takes answers =>
    intro event hevent hworker told state hshown
    rcases List.mem_cons.mp hevent with rfl | hevent
    · cases hworker
      have performs : World.Performs c w op fleet.world reply ⟨db, .performed w op reply db :: fleet.world.log⟩ :=
        ⟨answers, rfl⟩
      have hallowed := (((hs.workers w worker found).2.perform takes performs).1).allowed performs
      cases op with
      | publish id' shown =>
        cases hshown
        exact hallowed.1.trans (hjob worker found)
      | _ => cases hshown
    · exact hspeaks event hevent hworker told state hshown
  | _ => exact hspeaks

end Steps

private theorem task_or_receiver_subscribed (h : registry.Sound c) (auth : UpstreamAuth)
    (requestBody : Value) {job : Job} {w : Nat} {id : JobId} (hown : (registry.subscribe c auth requestBody job).Task w id ∨
      .live id w ∈ (registry.subscribe c auth requestBody job).receivers) :
    (w = registry.fleet.nextWorker ∧ id = job.id ∧
        (registry.subscribe c auth requestBody job).fleet = start c registry.fleet auth requestBody job) ∨
      (registry.Task w id ∨ .live id w ∈ registry.receivers) := by
  unfold Registry.subscribe at hown ⊢
  split at hown
  · rcases hown with htask | hreceiver
    · exact .inr (.inl htask)
    · rcases List.mem_cons.mp hreceiver with heq | hreceiver
      · cases heq
      · exact .inr (.inr hreceiver)
  next hlive =>
    rw [if_neg hlive]
    split at hown
    next worker hentry =>
      rcases hown with htask | hreceiver
      · exact .inr (.inl htask)
      · rcases List.mem_cons.mp hreceiver with heq | hreceiver
        · cases heq
          exact .inr (.inl ((h.entries job.id _).mp hentry))
        · exact .inr (.inr hreceiver)
    next hnone =>
      dsimp only at hown ⊢
      rcases hown with htask | hreceiver
      · rcases (h.task_start auth requestBody job w id).mp htask with ⟨hw, hid⟩ | htask
        · exact .inl ⟨hw, hid, rfl⟩
        · exact .inr (.inl htask)
      · rcases List.mem_cons.mp hreceiver with heq | hreceiver
        · cases heq
          exact .inl ⟨rfl, rfl, rfl⟩
        · exact .inr (.inr hreceiver)

/-- Nobody announced anything on a channel that is not there yet. -/
private theorem speaksOf_fresh (h : registry.Sound c) (id : JobId) :
    SpeaksOf registry.fleet.world.log registry.fleet.nextWorker id := fun event hevent hworker =>
  absurd (h.fleet.fresh event hevent _ hworker) (Nat.lt_irrefl _)

private theorem Faithful.subscribe (hf : registry.Faithful) (h : registry.Sound c) (auth : UpstreamAuth)
    (requestBody : Value) (job : Job) : (registry.subscribe c auth requestBody job).Faithful := by
  have hcases : (registry.subscribe c auth requestBody job).fleet = registry.fleet ∨
      (registry.subscribe c auth requestBody job).fleet = start c registry.fleet auth requestBody job := by
    unfold Registry.subscribe
    split
    · exact .inl rfl
    · split
      · exact .inl rfl
      · exact .inr rfl
  have hstarted : ∀ id w, SpeaksOf registry.fleet.world.log w id → (w = registry.fleet.nextWorker → id = job.id) →
      SpeaksOf (start c registry.fleet auth requestBody job).world.log w id := by
    intro id w hspeaks hid event hevent hworker told state hshown
    rcases List.mem_cons.mp hevent with rfl | hevent
    · cases hworker
      cases hshown
      exact (hid rfl).symm
    · exact hspeaks event hevent hworker told state hshown
  refine ⟨?_, fun id w hown => ?_⟩
  · rcases hcases with hsame | hnew
    · rw [hsame]
      exact hf.past
    · rw [hnew]
      intro event hevent db hafter
      rcases List.mem_cons.mp hevent with rfl | hevent
      · cases hafter
      · exact hf.past event hevent db hafter
  · rcases task_or_receiver_subscribed h auth requestBody hown with ⟨rfl, rfl, hnew⟩ | hown
    · rw [hnew]
      exact hstarted _ _ (speaksOf_fresh h _) fun _ => rfl
    · rcases hcases with hsame | hnew
      · rw [hsame]
        exact hf.own id w hown
      · rw [hnew]
        exact hstarted id w (hf.own id w hown) fun hw => absurd (h.worker_lt hown) (hw ▸ Nat.lt_irrefl _)

theorem Step.faithful (hstep : Step c registry registry') (h : registry.Sound c) (hf : registry.Faithful) :
    registry'.Faithful := by
  cases hstep with
  | runs fleet step keeps =>
    refine ⟨past_step step h.fleet hf.past, fun id w hown => ?_⟩
    have hold : registry.Task w id ∨ .live id w ∈ registry.receivers := hown.imp_left (h.task_iff step keeps w id).mp
    exact (hf.own id w hold).step step h.fleet keeps fun worker found => h.worker_job hold found
  | subscribes auth requestBody job held => exact hf.subscribe h auth requestBody job
  | returns w worker found done =>
    refine ⟨hf.past, fun id other hown => hf.own id other (hown.imp_left fun htask => ?_)⟩
    have hentry : registry.entries id = some other := ((h.stop found done).entries id other).mpr htask
    exact (h.entries id other).mp hentry
  | removes w id task =>
    refine ⟨hf.past, fun other other' hown => hf.own other other' (hown.imp_left ?_)⟩
    rintro (hrunning | hreturned)
    · exact .inl hrunning
    · exact .inr (List.mem_of_mem_erase hreturned)

theorem Initial.faithful (h : registry.Initial) : registry.Faithful where
  past event hevent db hafter := by
    rw [h.fleet.log] at hevent
    rw [List.mem_singleton.mp hevent] at hafter
    cases hafter
    exact .refl _
  own id w hown := by
    have hworkers := h.fleet.workers
    simp [Task, hworkers, h.returned, h.receivers] at hown

theorem Life.faithful (hlife : Life c registry registry') (h : registry.Sound c) (hf : registry.Faithful) :
    registry'.Faithful := by
  induction hlife with
  | refl => exact hf
  | tail hbefore hmove ih =>
    cases hmove with
    | step hstep => exact hstep.faithful (Life.sound hbefore h).1 ih
    | reopens => exact ⟨ih.past, fun id w hown => by simp [Task, Registry.reopened] at hown⟩

/-- What a receiver shows last is what the store keeps. -/
theorem Sound.shown_stored (h : registry.Sound c) (hf : registry.Faithful) {receiver : Receiver}
    (hreceiver : receiver ∈ registry.receivers) {state : JobState}
    (hshown : receiver.borrow registry.fleet.world = some state) (hterminal : state.isTerminal = true) :
    Stored c receiver.id state registry.fleet.world.db := by
  cases receiver with
  | closed id shown =>
    cases hshown
    exact stored_of_reached hterminal (h.closed id state hreceiver).2
  | live id w =>
    obtain ⟨event, hevent, hby⟩ := List.mem_filterMap.mp (List.mem_of_head? hshown)
    unfold Event.shownBy at hby
    split at hby
    next hworker =>
      obtain ⟨⟨told, state'⟩, htold, rfl⟩ := Option.map_eq_some_iff.mp hby
      obtain rfl := hf.own id w (.inr hreceiver) event hevent hworker told state' htold
      obtain ⟨later, earlier, hlog⟩ := List.append_of_mem hevent
      obtain ⟨db, hdb, job, hget, rfl⟩ := h.fleet.announced.committed later event earlier told state' hlog htold
      obtain ⟨committed, hcommitted, hafter⟩ := List.mem_filterMap.mp hdb
      have hpast := hf.past committed (by rw [hlog]; simp [hcommitted]) db hafter
      exact Stored.forward ⟨hterminal, congrArg (Except.map Job.state) hget⟩ hpast
    · cases hby

/-- What holds of every process that serves requests. -/
structure Intact (c : Codec) (registry : Registry) : Prop where
  sound : registry.Sound c
  faithful : registry.Faithful

theorem Life.intact (hlife : Life c registry registry') (h : registry.Intact c) : registry'.Intact c :=
  ⟨(Life.sound hlife h.sound).1, hlife.faithful h.sound h.faithful⟩

theorem Initial.intact (h : registry.Initial) : registry.Intact c := ⟨h.sound, h.faithful⟩

/-- A handler's statement left these tables behind. -/
def store (registry : Registry) (db : Database) : Registry :=
  { registry with fleet := { registry.fleet with world := ⟨db, .stored db :: registry.fleet.world.log⟩ } }

/-- A handler has read this copy of a job. -/
def hold (registry : Registry) (job : Job) : Registry :=
  { registry with fleet := { registry.fleet with copies := job :: registry.fleet.copies } }

theorem hold_run {id : JobId} {job : Job} (h : registry.fleet.world.db.get c id = .ok job) :
    Run c registry (registry.hold job) := .single (.runs registry _ (.read _ id job h) ⟨rfl, fun _ => rfl⟩)

/-- The job is finished, or a task of this process is on it. -/
def Cared (registry : Registry) (id : JobId) : Prop := (∃ w, registry.Task w id) ∨ registry.fleet.world.db.Ended id

private theorem task_subscribed (h : registry.Sound c) (auth : UpstreamAuth) (requestBody : Value) (job : Job) {w : Nat}
    {id : JobId} (htask : registry.Task w id) : (registry.subscribe c auth requestBody job).Task w id := by
  unfold Registry.subscribe
  split
  · exact htask
  · split
    · exact htask
    · exact (h.task_start auth requestBody job w id).mpr (.inr htask)

/-- While the process lives a job is only let go of when it is finished. -/
theorem Step.cared (hstep : Step c registry registry') (h : registry.Sound c) {id : JobId} (hcared : registry.Cared id) :
    registry'.Cared id := by
  rcases hcared with ⟨w, htask⟩ | hended
  · cases hstep with
    | runs fleet step keeps => exact .inl ⟨w, (h.task_iff step keeps w id).mpr htask⟩
    | subscribes auth requestBody job held => exact .inl ⟨w, task_subscribed h auth requestBody job htask⟩
    | returns other worker found done =>
      have hentry : registry.entries id = some w := (h.entries id w).mpr htask
      exact .inl ⟨w, ((h.stop found done).entries id w).mp hentry⟩
    | removes other job task =>
      by_cases hid : id = job
      · subst hid
        obtain ⟨state, -, hstored⟩ := stored_of_finished (h.finished other id task)
        exact .inr hstored.ended
      · have hentry : (registry.remove other job).entries id = some w := (if_neg hid).trans ((h.entries id w).mpr htask)
        exact .inl ⟨w, ((h.remove task).entries id w).mp hentry⟩
  · exact .inr (hended.forward (hstep.forward h))

theorem Run.cared (hrun : Run c registry registry') (h : registry.Sound c) {id : JobId} (hcared : registry.Cared id) :
    registry'.Cared id := by
  induction hrun with
  | refl => exact hcared
  | tail hbefore hstep ih => exact hstep.cared (Run.sound hbefore h) ih

/-- A job that was subscribed to is taken care of. -/
theorem Sound.subscribe_cares (h : registry.Sound c) (auth : UpstreamAuth) (requestBody : Value) {job : Job}
    (held : job ∈ registry.fleet.copies) : (registry.subscribe c auth requestBody job).Cared job.id := by
  unfold Registry.subscribe
  split
  next hterminal => exact .inr (stored_of_reached hterminal (h.fleet.copies job held)).ended
  · split
    next w hentry => exact .inl ⟨w, (h.entries job.id w).mp hentry⟩
    · exact .inl ⟨_, (h.task_start auth requestBody job _ _).mpr (.inl ⟨rfl, rfl⟩)⟩

end Registry

/-- The version of the channel's value. -/
def Receiver.version (s : World) : Receiver → Nat
  | .live _ w => (published w s.log).length
  | .closed _ _ => 0

/-- Nobody can set the channel's value any more. -/
def Receiver.Closed (registry : Registry) : Receiver → Prop
  | .live id w => ¬ registry.Task w id
  | .closed _ _ => True

namespace Registry
variable {c : Codec} {registry registry' : Registry}

/-- The caller looks at the receiver until it has seen a terminal state. Before it looks again the value
has changed; where the value has not changed and the channel is closed, it learns that and gives up. -/
inductive Watches (c : Codec) (receiver : Receiver) : Registry → List JobState → Registry → Prop where
  | sees {a b : Registry} {state : JobState} (run : Run c a b) (shown : receiver.borrow b.fleet.world = some state)
      (terminal : state.isTerminal = true) : Watches c receiver a [state] b
  | changes {a b d e : Registry} {state : JobState} {states : List JobState} (run : Run c a b)
      (shown : receiver.borrow b.fleet.world = some state) (live : state.isTerminal = false) (waits : Run c b d)
      (changed : receiver.version d.fleet.world ≠ receiver.version b.fleet.world)
      (rest : Watches c receiver d states e) :
      Watches c receiver a (state :: states) e
  | closes {a b d : Registry} {state : JobState} (run : Run c a b) (shown : receiver.borrow b.fleet.world = some state)
      (live : state.isTerminal = false) (waits : Run c b d)
      (same : receiver.version d.fleet.world = receiver.version b.fleet.world) (closed : receiver.Closed d) :
      Watches c receiver a [state] d

/-- Between two looks that find the same version the value is the same. -/
theorem borrow_of_version {receiver : Receiver} (hrun : Run c registry registry')
    (hsame : receiver.version registry'.fleet.world = receiver.version registry.fleet.world) :
    receiver.borrow registry'.fleet.world = receiver.borrow registry.fleet.world := by
  cases receiver with
  | closed => rfl
  | live id w =>
    obtain ⟨⟨events, hevents⟩, -⟩ := hrun.steady
    have hpublished : published w registry'.fleet.world.log =
        published w events ++ published w registry.fleet.world.log := by
      rw [hevents]
      exact List.filterMap_append
    have hnone : published w events = [] := by
      have hlength : (published w registry'.fleet.world.log).length =
          (published w registry.fleet.world.log).length := hsame
      rw [hpublished, List.length_append] at hlength
      exact List.eq_nil_of_length_eq_zero (by omega)
    show (published w registry'.fleet.world.log).head? = _
    rw [hpublished, hnone]
    rfl

/-- A channel that is closed has shown how its job ended. -/
theorem Sound.closed_shows (h : registry.Sound c) {receiver : Receiver} (hreceiver : receiver ∈ registry.receivers)
    (hclosed : receiver.Closed registry) :
    ∃ state, receiver.borrow registry.fleet.world = some state ∧ state.isTerminal = true := by
  obtain ⟨state, hshown, hterminal, -⟩ := h.shows hreceiver fun w hw => by
    cases receiver with
    | closed => cases hw
    | live id other =>
      cases hw
      obtain ⟨-, htask | ⟨hidle, -⟩⟩ := h.opened id w hreceiver
      · exact absurd htask hclosed
      · exact hidle
  exact ⟨state, hshown, hterminal⟩

/-- Whoever waits sees the stored outcome in the end; it never finds the channel closed before. -/
theorem Watches.outcome {receiver : Receiver} {states : List JobState}
    (hwatch : Watches c receiver registry states registry') (h : registry.Sound c) (hf : registry.Faithful)
    (hreceiver : receiver ∈ registry.receivers) :
    Run c registry registry' ∧ ∃ before state, states = before ++ [state] ∧ (∀ seen ∈ before, seen.isTerminal = false) ∧
      Stored c receiver.id state registry'.fleet.world.db := by
  induction hwatch with
  | sees run shown terminal =>
    refine ⟨run, [], _, rfl, fun _ hseen => absurd hseen List.not_mem_nil, ?_⟩
    exact (Run.sound run h).shown_stored (run.life.faithful h hf) (run.steady.2 hreceiver) shown terminal
  | changes run shown live waits changed _ ih =>
    have hrun : Run c _ _ := run.trans waits
    obtain ⟨hlater, before, state, rfl, hbefore, hstored⟩ :=
      ih (Run.sound hrun h) (hrun.life.faithful h hf) (hrun.steady.2 hreceiver)
    refine ⟨hrun.trans hlater, _ :: before, state, rfl, fun seen hseen => ?_, hstored⟩
    rcases List.mem_cons.mp hseen with rfl | hseen
    · exact live
    · exact hbefore seen hseen
  | closes run shown live waits same closed =>
    have hrun : Run c _ _ := run.trans waits
    obtain ⟨state, hshown, hterminal⟩ := (Run.sound hrun h).closed_shows (hrun.steady.2 hreceiver) closed
    rw [borrow_of_version waits same, shown] at hshown
    cases hshown
    rw [live] at hterminal
    cases hterminal

end Registry
end Kaiion.Durable
