import Kaiion.Durable.Fleet

/-! What one worker relies on and guarantees: it announces only committed states in forward order,
calls create_batch only on its own unspent submission, and moves rows forward. -/
namespace Kaiion.Durable
open Foundation

/-- The job and state an event puts on a watch channel; a new channel starts with the state its
worker was given. -/
def Event.shown : Event → Option (JobId × JobState)
  | .subscribed _ job => some (job.id, job.state)
  | .performed _ (.publish id state) _ _ => some (id, state)
  | _ => none

def Event.shownBy (w : Nat) (event : Event) : Option JobState :=
  if event.worker = some w then event.shown.map Prod.snd else none

/-- The states a worker has put on its watch channel, newest first. -/
def published (w : Nat) (log : List Event) : List JobState := log.filterMap (Event.shownBy w)

/-- A create_batch call for the job. -/
def Event.creates (id : JobId) : Event → Bool
  | .performed _ (.createBatch _ _ job) _ _ => job = id
  | _ => false

/-- A submission of the job that the store acknowledged. -/
def Event.begins (id : JobId) : Event → Bool
  | .performed _ (.transition (.beginSubmission job _)) (.ok _) _ => job = id
  | _ => false

def createdBy (w : Nat) (id : JobId) (log : List Event) : Nat :=
  log.countP (fun event => event.worker = some w && event.creates id)

def begunBy (w : Nat) (id : JobId) (log : List Event) : Nat :=
  log.countP (fun event => event.worker = some w && event.begins id)

/-- Some committed version of the tables held the job in this state. -/
def Committed (c : Codec) (id : JobId) (state : JobState) (log : List Event) : Prop :=
  ∃ db ∈ log.filterMap Event.after, ∃ job, db.get c id = .ok job ∧ job.state = state

/-- The job was committed in this state, its row is at least as far, and a terminal row still
decodes to it. -/
structure Reached (c : Codec) (id : JobId) (state : JobState) (s : World) : Prop where
  committed : Committed c id state s.log
  row : ∃ row, s.db.row? id = some row ∧ state.stage ≤ row.status.stage ∧
    (state.isTerminal = true → (row.tryFrom c).map Job.state = .ok state)

/-- When a worker `w` of the job `id` may perform an operation after the events of `log`. -/
def Op.Allowed (c : Codec) (w : Nat) (id : JobId) (log : List Event) : Op → Prop
  | .publish job state => job = id ∧ Committed c id state log ∧
      ∀ previous, (published w log).head? = some previous → previous.stage ≤ state.stage
  | .createBatch _ _ job => job = id ∧ createdBy w id log < begunBy w id log
  | .transition t => t.id = id ∧ t.Advances
  | _ => True

/-- What the rest of the system does between two steps of worker `w`. -/
structure Rely (w : Nat) (s s' : World) : Prop where
  forward : s.db.Forward s'.db
  wellFormed : s.db.WellFormed → s'.db.WellFormed
  log : ∃ events, s'.log = events ++ s.log ∧ ∀ event ∈ events, event.worker ≠ some w

def Guarantee (c : Codec) (w : Nat) (id : JobId) (s s' : World) : Prop :=
  ∃ op reply, World.Performs c w op s reply s' ∧ op.Allowed c w id s.log

abbrev Upholds {α : Type} (c : Codec) (w : Nat) (id : JobId) (p : Driver α) (post : α → World → Prop)
    (s : World) : Prop :=
  Prog.Safe (Rely w) (Guarantee c w id) (World.Performs c w) p post s

theorem Rely.refl (w : Nat) (s : World) : Rely w s s :=
  ⟨.refl s.db, id, [], rfl, fun _ h => nomatch h⟩

theorem Rely.trans {w : Nat} {a b d : World} (h : Rely w a b) (h' : Rely w b d) : Rely w a d := by
  obtain ⟨events, he, hn⟩ := h.log
  obtain ⟨events', he', hn'⟩ := h'.log
  refine ⟨h.forward.trans h'.forward, h'.wellFormed ∘ h.wellFormed, events' ++ events, ?_, ?_⟩
  · rw [he', he, List.append_assoc]
  · intro event hevent
    rcases List.mem_append.mp hevent with hevent | hevent
    · exact hn' event hevent
    · exact hn event hevent

theorem Rely.published {w : Nat} {s s' : World} (h : Rely w s s') :
    Durable.published w s'.log = Durable.published w s.log := by
  obtain ⟨events, he, hn⟩ := h.log
  have hnone : events.filterMap (Event.shownBy w) = [] :=
    List.filterMap_eq_nil_iff.mpr (fun event hevent => if_neg (hn event hevent))
  simp only [Durable.published, he, List.filterMap_append, hnone, List.nil_append]

private theorem countP_rely {w : Nat} {s s' : World} (h : Rely w s s') (p : Event → Bool) :
    s'.log.countP (fun event => event.worker = some w && p event) =
      s.log.countP (fun event => event.worker = some w && p event) := by
  obtain ⟨events, he, hn⟩ := h.log
  have hzero : events.countP (fun event => event.worker = some w && p event) = 0 :=
    List.countP_eq_zero.mpr (fun event hevent => by simp [hn event hevent])
  rw [he, List.countP_append, hzero, Nat.zero_add]

theorem Rely.createdBy {w : Nat} {s s' : World} (h : Rely w s s') (id : JobId) :
    Durable.createdBy w id s'.log = Durable.createdBy w id s.log := countP_rely h _

theorem Rely.begunBy {w : Nat} {s s' : World} (h : Rely w s s') (id : JobId) :
    Durable.begunBy w id s'.log = Durable.begunBy w id s.log := countP_rely h _

theorem Committed.mono {c : Codec} {id : JobId} {state : JobState} {log : List Event}
    (h : Committed c id state log) (events : List Event) : Committed c id state (events ++ log) := by
  obtain ⟨db, hdb, hjob⟩ := h
  exact ⟨db, by rw [List.filterMap_append]; exact List.mem_append_right _ hdb, hjob⟩

/-- Nothing undoes what was reached: rows move forward, and terminal rows not at all. -/
theorem Reached.mono {c : Codec} {id : JobId} {state : JobState} {s s' : World}
    (h : Reached c id state s) (hf : s.db.Forward s'.db) (hl : ∃ events, s'.log = events ++ s.log) :
    Reached c id state s' := by
  obtain ⟨row, hrow, hle, ht⟩ := h.row
  obtain ⟨row', hrow', hfw⟩ := hf id row hrow
  obtain ⟨events, he⟩ := hl
  refine ⟨he ▸ h.committed.mono events, row', hrow', Nat.le_trans hle hfw.stage_le, fun hterm => ?_⟩
  have hfive := (JobState.isTerminal_iff state).mp hterm
  have := row.status.stage_le
  rw [hfw.eq_of_terminal (by omega)]
  exact ht hterm

/-- Only a transition changes the tables, and then as its statement does. -/
theorem World.Performs.db_cases {c : Codec} {w : Nat} {op : Op} {s s' : World} {reply : Op.Reply op}
    (h : World.Performs c w op s reply s') :
    s'.db = s.db ∨ ∃ t now, op = .transition t ∧ s'.db = (t.run c now s.db).1 := by
  obtain ⟨h, -⟩ := h
  cases op with
  | transition t =>
    obtain ⟨now, fault, hf⟩ := h
    have hdb : (fault.apply PersistenceError.database s.db (t.run c now s.db)).1 = s'.db :=
      congrArg Prod.fst hf
    rcases fault.apply_fst PersistenceError.database s.db (t.run c now s.db) with he | he
    · exact Or.inl (hdb.symm.trans he)
    · exact Or.inr ⟨t, now, rfl, hdb.symm.trans he⟩
  | get id => exact Or.inl h.1
  | _ => exact Or.inl h

theorem World.Performs.wellFormed {c : Codec} {w : Nat} {op : Op} {s s' : World} {reply : Op.Reply op}
    (h : World.Performs c w op s reply s') (hw : s.db.WellFormed) : s'.db.WellFormed := by
  rcases h.db_cases with he | ⟨t, now, -, he⟩
  · rwa [he]
  · rw [he]
    exact (t.run_spec c now hw).1

theorem World.Performs.forward {c : Codec} {w : Nat} {id : JobId} {op : Op} {s s' : World}
    {reply : Op.Reply op} (h : World.Performs c w op s reply s') (hw : s.db.WellFormed)
    (ha : op.Allowed c w id s.log) :
    s.db.Forward s'.db := by
  rcases h.db_cases with he | ⟨t, now, rfl, he⟩
  · rw [he]
    exact .refl s.db
  · rw [he]
    exact Transition.run_forward c now hw.uniqueIds ha.2

/-- A stored state is committed, and the row decodes to it. -/
theorem reached_of_get {c : Codec} {id : JobId} {job : Job} {s : World}
    (h : s.db.get c id = .ok job) (hs : ∃ event ∈ s.log, event.after = some s.db) :
    Reached c id job.state s ∧ ∃ row, s.db.row? id = some row ∧ row.tryFrom c = .ok job := by
  obtain ⟨event, hevent, hafter⟩ := hs
  have hcommitted : Committed c id job.state s.log :=
    ⟨s.db, List.mem_filterMap.mpr ⟨event, hevent, hafter⟩, job, h, rfl⟩
  unfold Database.get at h
  split at h
  next row hrow =>
    obtain ⟨-, -, hstatus⟩ := JobRow.tryFrom_ok h
    exact ⟨⟨hcommitted, row, hrow, Nat.le_of_eq (congrArg Status.stage hstatus), fun _ => by rw [h]; rfl⟩,
      row, hrow, h⟩
  · cases h

/-- A transition that replies with a state has rewritten the row it expected, and the new row
decodes to that state. -/
theorem World.Performs.transition_row {c : Codec} {w : Nat} {t : Transition} {s s' : World}
    {state : JobState} (h : World.Performs c w (.transition t) s (.ok state) s')
    (hw : s.db.WellFormed) : ∃ now row job, s.db.row? t.id = some row ∧ t.affects row = true ∧
      s'.db.row? t.id = some (t.set c now row) ∧ (t.set c now row).tryFrom c = .ok job ∧
      job.state = state := by
  obtain ⟨⟨now, fault, hf⟩, -⟩ := h
  have hrun := Fault.apply_ok hf
  rcases t.run_cases c now hw.uniqueIds with ⟨error, he, -⟩ | ⟨row, hrow, ha, -, he⟩
  · rw [he] at hrun
    exact nomatch (congrArg Prod.snd hrun : Except.error error = Except.ok state)
  · rw [he] at hrun
    have hdb : s.db.replace t.id (t.set c now row) = s'.db := congrArg Prod.fst hrun
    have hreply : ((t.set c now row).tryFrom c).map Job.state = .ok state := congrArg Prod.snd hrun
    cases htry : (t.set c now row).tryFrom c with
    | error error =>
      rw [htry] at hreply
      cases hreply
    | ok job =>
      rw [htry] at hreply
      refine ⟨now, row, job, hrow, ha, ?_, htry, Except.ok.inj hreply⟩
      rw [← hdb]
      exact Database.replace_row? hrow ((t.set_id c now row).trans (Database.row?_id hrow))

/-- A transition that replies with a state has committed it under the status it writes. -/
theorem World.Performs.transition_ok {c : Codec} {w : Nat} {t : Transition} {s s' : World}
    {state : JobState} (h : World.Performs c w (.transition t) s (.ok state) s')
    (hw : s.db.WellFormed) : Reached c t.id state s' ∧ statusOf state = t.target := by
  obtain ⟨now, row, job, -, -, hrow', htry, rfl⟩ := h.transition_row hw
  have hget : s'.db.get c t.id = .ok job := by
    rw [Database.get, hrow']
    exact htry
  refine ⟨(reached_of_get hget ⟨_, h.2 ▸ List.mem_cons_self, rfl⟩).1, ?_⟩
  rw [(JobRow.tryFrom_ok htry).2.2, t.set_status]

/-- Worker `w`'s copy of its job is the state it announced last, the row is at least as far, and
it has not called create_batch more often than it began submissions. -/
structure Holding (c : Codec) (w : Nat) (job : Job) (s : World) : Prop where
  wellFormed : s.db.WellFormed
  shown : (published w s.log).head? = some job.state
  reached : Reached c job.id job.state s
  balance : createdBy w job.id s.log ≤ begunBy w job.id s.log

theorem Holding.rely {c : Codec} {w : Nat} {job : Job} {s s' : World} (h : Holding c w job s)
    (hr : Rely w s s') : Holding c w job s' := by
  obtain ⟨events, he, -⟩ := hr.log
  refine ⟨hr.wellFormed h.wellFormed, hr.published ▸ h.shown, h.reached.mono hr.forward ⟨events, he⟩, ?_⟩
  rw [hr.createdBy, hr.begunBy]
  exact h.balance

theorem createdBy_cons (w : Nat) (id : JobId) (event : Event) (log : List Event) :
    createdBy w id (event :: log) =
      createdBy w id log + if event.worker = some w && event.creates id then 1 else 0 :=
  List.countP_cons ..

theorem begunBy_cons (w : Nat) (id : JobId) (event : Event) (log : List Event) :
    begunBy w id (event :: log) =
      begunBy w id log + if event.worker = some w && event.begins id then 1 else 0 :=
  List.countP_cons ..

/-- An allowed operation never overdraws a worker's submissions. -/
theorem Op.Allowed.balance {c : Codec} {w : Nat} {id : JobId} {log : List Event} {op : Op}
    (h : op.Allowed c w id log) (reply : Op.Reply op) (after : Database) {other : JobId}
    (hb : createdBy w other log ≤ begunBy w other log) :
    createdBy w other (.performed w op reply after :: log) ≤
      begunBy w other (.performed w op reply after :: log) := by
  rw [createdBy_cons, begunBy_cons]
  cases op with
  | createBatch auth inputFileId job =>
    obtain ⟨rfl, h⟩ := h
    by_cases he : job = other
    · subst he
      simp [Event.worker, Event.creates, Event.begins]
      omega
    · simp [Event.creates, he]
      omega
  | _ => simp [Event.creates]; omega

/-- Any allowed operation but an announcement keeps the loop variable valid. -/
theorem Holding.performed {c : Codec} {w : Nat} {job : Job} {op : Op} {s s' : World} {reply : Op.Reply op}
    (h : Holding c w job s) (hp : World.Performs c w op s reply s') (ha : op.Allowed c w job.id s.log)
    (hq : ∀ id state, op ≠ .publish id state) : Holding c w job s' := by
  have hlog := hp.2
  refine ⟨hp.wellFormed h.wellFormed, ?_, h.reached.mono (hp.forward h.wellFormed ha) ⟨[_], hlog⟩, ?_⟩
  · have hnone : Event.shownBy w (.performed w op reply s'.db) = none := by
      cases op with
      | publish id state => exact (hq id state rfl).elim
      | _ => simp [Event.shownBy, Event.shown]
    rw [hlog, published, List.filterMap_cons_none hnone]
    exact h.shown
  · rw [hlog]
    exact ha.balance reply s'.db h.balance

end Kaiion.Durable
