import Kaiion.Durable.FleetSafety

/-! A job driven by one worker and written by no one else. The loop variable of that worker agrees
with the row, except that it stays uploaded while the row is already submitting. -/
namespace Kaiion.Durable
open Foundation

/-- No worker but `w` drives the job. -/
def Fleet.SoleWriter (w : Nat) (id : JobId) (fleet : Fleet) : Prop :=
  ∀ other worker, fleet.workers other = some worker → worker.job.id = id → other = w

/-- A transition that reports an error changed nothing. -/
def Op.Acknowledged (db : Database) : (op : Op) → Op.Reply op → Database → Prop
  | .transition _, .error _, db' => db' = db
  | _, _, _ => True

/-- A step that leaves worker `w` the only one on the job and tells it the truth about its own
transitions. -/
def Fleet.SoleStep (c : Codec) (w : Nat) (id : JobId) (fleet fleet' : Fleet) : Prop :=
  Fleet.Step c fleet fleet' ∧ fleet'.SoleWriter w id ∧
  ∀ op reply after, fleet'.world.log = .performed w op reply after :: fleet.world.log →
    op.Acknowledged fleet.world.db reply after

abbrev Fleet.SoleRun (c : Codec) (w : Nat) (id : JobId) : Fleet → Fleet → Prop :=
  Relation.ReflTransGen (Fleet.SoleStep c w id)

/-- Worker `w` has just been started, alone, on an up-to-date copy of its job. -/
structure Fleet.Starts (c : Codec) (w : Nat) (job : Job) (fleet : Fleet) : Prop where
  worker : ∃ auth requestBody, fleet.workers w = some (.turn c auth requestBody job)
  current : fleet.world.db.get c job.id = .ok job
  sole : fleet.SoleWriter w job.id

/-- A create_batch call of the worker that the provider refused for good. -/
def Event.refuses (w : Nat) (id : JobId) : Event → Bool
  | .performed worker (.createBatch _ _ job) (.error error) _ =>
      worker = w && job = id && !error.retryable
  | _ => false

/-- The store holds exactly this job. -/
def Stored (c : Codec) (job : Job) (s : World) : Prop :=
  s.db.WellFormed ∧ s.db.get c job.id = .ok job

/-- How far the stored job may be from the loop variable. -/
def Lags (job stored : Job) : Prop :=
  stored = job ∨ ∃ inputFileId other startedAt, job.state = .uploaded inputFileId ∧
    stored = { job with state := .submitting other startedAt }

def Synced (c : Codec) (job : Job) (s : World) : Prop := ∃ stored, Lags job stored ∧ Stored c stored s

/-- Steps of the others leave the job's row alone. -/
structure Quiet (id : JobId) (s s' : World) : Prop where
  row : s'.db.row? id = s.db.row? id
  wellFormed : s.db.WellFormed → s'.db.WellFormed
  log : ∃ events, s'.log = events ++ s.log

def World.Acknowledges (c : Codec) (w : Nat) (op : Op) (s : World) (reply : Op.Reply op) (s' : World) :
    Prop :=
  World.Performs c w op s reply s' ∧ op.Acknowledged s.db reply s'.db

abbrev Tracks {α : Type} (c : Codec) (w : Nat) (id : JobId) (p : Driver α) (post : α → World → Prop)
    (s : World) : Prop :=
  Prog.Safe (Quiet id) (fun _ _ => True) (World.Acknowledges c w) p post s

/-- Where the store is when `advance` returns. -/
def Tracked (c : Codec) (w : Nat) (job : Job) : Except DriverError JobState → World → Prop
  | .ok next, s => Stored c { job with state := next } s
  | .error (.permanent _), s =>
    (Stored c job s ∧ ∀ inputFileId, job.state ≠ .uploaded inputFileId) ∨
    ∃ inputFileId other startedAt, job.state = .uploaded inputFileId ∧
      Stored c { job with state := .submitting other startedAt } s ∧
      ∃ event ∈ s.log, event.refuses w job.id = true
  | .error _, s => Synced c job s

def Turned (c : Codec) (id : JobId) : Turn → World → Prop
  | .again job, s => job.id = id ∧ Synced c job s
  | .stop, _ => True

theorem Quiet.refl (id : JobId) (s : World) : Quiet id s s := ⟨rfl, fun h => h, [], rfl⟩

theorem Quiet.trans {id : JobId} {a b d : World} (h : Quiet id a b) (h' : Quiet id b d) : Quiet id a d := by
  obtain ⟨events, he⟩ := h.log
  obtain ⟨events', he'⟩ := h'.log
  exact ⟨h'.row.trans h.row, h'.wellFormed ∘ h.wellFormed, events' ++ events,
    by rw [he', he, List.append_assoc]⟩

theorem Stored.quiet {c : Codec} {id : JobId} {job : Job} {s s' : World} (h : Stored c job s)
    (hid : job.id = id) (hq : Quiet id s s') : Stored c job s' := by
  refine ⟨hq.wellFormed h.1, ?_⟩
  subst hid
  have hget := h.2
  unfold Database.get at hget ⊢
  rwa [hq.row]

theorem Lags.id_eq {job stored : Job} (h : Lags job stored) : stored.id = job.id := by
  rcases h with rfl | ⟨_, _, _, -, rfl⟩ <;> rfl

/-- Only the state differs. -/
theorem Lags.with_state {job stored : Job} (h : Lags job stored) (state : JobState) :
    { stored with state } = { job with state } := by
  rcases h with rfl | ⟨_, _, _, -, rfl⟩ <;> rfl

theorem Lags.eq_of_ne {job stored : Job} (h : Lags job stored)
    (hne : ∀ inputFileId, job.state ≠ .uploaded inputFileId) : stored = job := by
  rcases h with rfl | ⟨inputFileId, _, _, hs, -⟩
  · rfl
  · exact (hne inputFileId hs).elim

theorem Synced.quiet {c : Codec} {job : Job} {s s' : World} (h : Synced c job s)
    (hq : Quiet job.id s s') : Synced c job s' := by
  obtain ⟨stored, hl, h⟩ := h
  exact ⟨stored, hl, h.quiet hl.id_eq hq⟩

theorem Tracked.quiet {c : Codec} {w : Nat} {job : Job} {result : Except DriverError JobState}
    {s s' : World} (h : Tracked c w job result s) (hq : Quiet job.id s s') : Tracked c w job result s' := by
  obtain ⟨events, he⟩ := hq.log
  match result with
  | .ok next => exact Stored.quiet h rfl hq
  | .error .conflict => exact Synced.quiet h hq
  | .error (.retryable _) => exact Synced.quiet h hq
  | .error (.permanent _) =>
    rcases h with ⟨h, hne⟩ | ⟨inputFileId, other, startedAt, hs, h, event, hevent, hr⟩
    · exact Or.inl ⟨h.quiet rfl hq, hne⟩
    · exact Or.inr ⟨inputFileId, other, startedAt, hs, h.quiet rfl hq, event,
        he ▸ List.mem_append_right _ hevent, hr⟩

theorem Stored.row {c : Codec} {job : Job} {s : World} (h : Stored c job s) :
    ∃ row, s.db.row? job.id = some row ∧ row.tryFrom c = .ok job := by
  have hget := h.2
  unfold Database.get at hget
  split at hget
  next row hrow => exact ⟨row, hrow, hget⟩
  · cases hget

theorem Stored.of_db {c : Codec} {job : Job} {s s' : World} (h : Stored c job s) (hdb : s'.db = s.db) :
    Stored c job s' := by
  unfold Stored
  rw [hdb]
  exact h

/-- A transition that replies with a state expected the stored one and replaced it. -/
theorem World.Performs.stored_ok {c : Codec} {w : Nat} {t : Transition} {stored : Job} {s s' : World}
    {state : JobState} (hp : World.Performs c w (.transition t) s (.ok state) s') (h : Stored c stored s)
    (hid : t.id = stored.id) :
    Stored c { stored with state } s' ∧ statusOf stored.state = t.expected ∧ statusOf state = t.target := by
  obtain ⟨now, row, job, hrow, ha, hrow', htry, rfl⟩ := hp.transition_row h.1
  obtain ⟨old, hold, hfrom⟩ := h.row
  rw [hid] at hrow hrow'
  rw [hrow] at hold
  cases hold
  obtain ⟨hjid, hjmodel, hjstatus⟩ := JobRow.tryFrom_ok htry
  obtain ⟨hsid, hsmodel, hsstatus⟩ := JobRow.tryFrom_ok hfrom
  refine ⟨⟨hp.wellFormed h.1, ?_⟩, hsstatus.trans (Transition.affects_status ha), ?_⟩
  · have hsame : stored.id = job.id := by rw [hjid, t.set_id, hsid]
    have hmodel : stored.model = job.model := by rw [hjmodel, (t.set_identity c now row).2.2, hsmodel]
    have hjob : Job.mk stored.id stored.model job.state = job := by rw [hsame, hmodel]
    simp only [Database.get, hrow', htry, hjob]
  · rw [hjstatus, t.set_status]

section Rules
variable {c : Codec} {w : Nat} {job stored : Job} {α : Type} {s : World} {post : α → World → Prop}

/-- An operation is performed on whatever is stored. -/
private theorem perform_tracks {op : Op} {f : Op.Reply op → Driver α} (h : Stored c stored s)
    (hid : stored.id = job.id)
    (hnext : ∀ a reply b, Stored c stored a → World.Acknowledges c w op a reply b →
      Tracks c w job.id (f reply) post b) :
    Tracks c w job.id (Prog.perform op >>= f) post s :=
  Prog.Safe.call (Stored c stored) h (fun _ _ ha hq => ha.quiet hid hq) fun a reply b ha hp =>
    ⟨trivial, hnext a reply b ha hp⟩

private theorem ret_tracks {result : Except DriverError JobState} (h : Tracked c w job result s) :
    Tracks c w job.id (.ret result) (Tracked c w job) s :=
  fun _ hq => h.quiet hq

/-- Any failure before the submission finds the store where the loop variable is. -/
private theorem error_tracks (h : Stored c job s) (hne : ∀ inputFileId, job.state ≠ .uploaded inputFileId)
    (error : DriverError) : Tracks c w job.id (.ret (.error error)) (Tracked c w job) s := by
  cases error with
  | permanent message => exact ret_tracks (Or.inl ⟨h, hne⟩)
  | _ => exact ret_tracks ⟨job, Or.inl rfl, h⟩

private theorem persistence_error_tracks (hl : Lags job stored) (h : Stored c stored s)
    (error : PersistenceError) :
    Tracks c w job.id (.ret (.error (classifyPersistence error))) (Tracked c w job) s := by
  refine ret_tracks ?_
  cases he : classifyPersistence error with
  | permanent message => exact (classifyPersistence_ne_permanent error message he).elim
  | _ => exact ⟨stored, hl, h⟩

private theorem persist_tracks (hl : Lags job stored) (h : Stored c stored s) {t : Transition}
    (hid : t.id = job.id) : Tracks c w job.id (persist t) (Tracked c w job) s := by
  refine perform_tracks h hl.id_eq fun a reply b ha hp => ?_
  cases reply with
  | error error => exact persistence_error_tracks hl (ha.of_db hp.2) error
  | ok state =>
    have hstored := (hp.1.stored_ok ha (hid.trans hl.id_eq.symm)).1
    rw [hl.with_state] at hstored
    exact ret_tracks hstored

/-- Downloading a file and storing what it says, or failing on the way. -/
private theorem getFileContent_tracks (h : Stored c job s)
    (hne : ∀ inputFileId, job.state ≠ .uploaded inputFileId) {auth : UpstreamAuth} {fileId : String}
    {f : String → Driver (Except DriverError JobState)}
    (hf : ∀ content b, Stored c job b → Tracks c w job.id (f content) (Tracked c w job) b) :
    Tracks c w job.id (do
      match ← getFileContent auth fileId with
      | .error error => return .error (classifyProvider error)
      | .ok content => f content) (Tracked c w job) s := by
  refine perform_tracks h rfl fun a reply b ha hp => ?_
  cases reply with
  | error error => exact error_tracks (ha.of_db hp.1.1) hne _
  | ok content => exact hf content b (ha.of_db hp.1.1)

private theorem storeOutcome_tracks (h : Stored c job s) (outcome : StoredOutcome) :
    Tracks c w job.id (persist (.storeOutcome job.id job.state outcome)) (Tracked c w job) s :=
  persist_tracks (Or.inl rfl) h rfl

private theorem applyBatchStatus_tracks (h : Stored c job s)
    (hne : ∀ inputFileId, job.state ≠ .uploaded inputFileId) (auth : UpstreamAuth) (batch : BatchObject) :
    Tracks c w job.id (applyBatchStatus c auth job batch) (Tracked c w job) s := by
  unfold applyBatchStatus
  split
  · unfold applyCompleted
    split
    · exact getFileContent_tracks h hne fun content b hb => storeOutcome_tracks hb _
    · exact error_tracks h hne _
    · refine getFileContent_tracks h hne fun content b hb => ?_
      split
      · exact error_tracks hb hne _
      · split
        · exact error_tracks hb hne _
        · exact storeOutcome_tracks hb _
  · split
    · split
      · exact getFileContent_tracks h hne fun content b hb => storeOutcome_tracks hb _
      · exact storeOutcome_tracks h _
    · exact ret_tracks h

/-- From uploaded, the loop variable falls behind as soon as the submission is stored, and only a
refused create_batch call then ends in a permanent error. -/
private theorem submit_tracks (hl : Lags job stored) (h : Stored c stored s) (auth : UpstreamAuth)
    (inputFileId : FileId) (hstate : job.state = .uploaded inputFileId) (requestBody : Value) :
    Tracks c w job.id (advance c auth requestBody job) (Tracked c w job) s := by
  simp only [advance, hstate]
  refine perform_tracks h hl.id_eq fun a reply b ha hp => ?_
  cases reply with
  | error error => exact persistence_error_tracks hl (ha.of_db hp.2) error
  | ok submitting =>
    obtain ⟨hb, -, hstatus⟩ := hp.1.stored_ok ha hl.id_eq.symm
    rw [hl.with_state] at hb
    cases submitting with
    | submitting other startedAt =>
      have hlag : Lags job { job with state := .submitting other startedAt } :=
        Or.inr ⟨inputFileId, other, startedAt, hstate, rfl⟩
      refine perform_tracks hb rfl fun t reply u ht hu => ?_
      have hu' := ht.of_db hu.1.1
      cases reply with
      | ok batch => exact persist_tracks hlag hu' rfl
      | error error =>
        change Tracks c w job.id (if error.retryable then persist (.markSubmissionUncertain job.id)
          else .ret (.error (.permanent error.message))) _ u
        split
        · exact persist_tracks hlag hu' rfl
        next hrefused =>
          refine ret_tracks (Or.inr ⟨inputFileId, other, startedAt, hstate, hu', _,
            hu.1.2 ▸ List.mem_cons_self, ?_⟩)
          simpa [Event.refuses] using hrefused
    | terminal outcome => cases outcome <;> cases hstatus
    | _ => cases hstatus

theorem advance_tracks (hl : Lags job stored) (h : Stored c stored s) (auth : UpstreamAuth)
    (requestBody : Value) : Tracks c w job.id (advance c auth requestBody job) (Tracked c w job) s := by
  cases hstate : job.state with
  | uploaded inputFileId => exact submit_tracks hl h auth inputFileId hstate requestBody
  | queued =>
    have hne : ∀ inputFileId, job.state ≠ .uploaded inputFileId := by simp [hstate]
    cases hl.eq_of_ne hne
    simp only [advance, hstate]
    refine perform_tracks h rfl fun a reply b ha hp => ?_
    cases reply with
    | error error => exact error_tracks (ha.of_db hp.1.1) hne _
    | ok fileId => exact persist_tracks (Or.inl rfl) (ha.of_db hp.1.1) rfl
  | submitting inputFileId startedAt =>
    simp only [advance, hstate]
    exact persist_tracks hl h rfl
  | submissionUncertain inputFileId startedAt =>
    have hne : ∀ inputFileId, job.state ≠ .uploaded inputFileId := by simp [hstate]
    cases hl.eq_of_ne hne
    simp only [advance, hstate]
    refine perform_tracks h rfl fun a reply b ha hp => ?_
    have hb := ha.of_db hp.1.1
    cases reply with
    | error error => exact error_tracks hb hne _
    | ok found =>
      cases found with
      | some batch => exact persist_tracks (Or.inl rfl) hb rfl
      | none =>
        refine ret_tracks ?_
        rw [← hstate]
        exact hb
  | submitted batchId =>
    have hne : ∀ inputFileId, job.state ≠ .uploaded inputFileId := by simp [hstate]
    cases hl.eq_of_ne hne
    simp only [advance, hstate]
    refine perform_tracks h rfl fun a reply b ha hp => ?_
    cases reply with
    | error error => exact error_tracks (ha.of_db hp.1.1) hne _
    | ok batch => exact applyBatchStatus_tracks (ha.of_db hp.1.1) hne auth batch
  | terminal outcome =>
    have hne : ∀ inputFileId, job.state ≠ .uploaded inputFileId := by simp [hstate]
    cases hl.eq_of_ne hne
    simp only [advance, hstate]
    refine ret_tracks ?_
    rw [← hstate]
    exact h

private theorem again_tracks (hl : Lags job stored) (h : Stored c stored s) :
    Tracks c w job.id (.ret (.again job)) (Turned c job.id) s :=
  fun _ hq => ⟨rfl, Synced.quiet ⟨stored, hl, h⟩ hq⟩

private theorem stop_tracks : Tracks c w job.id (.ret .stop) (Turned c job.id) s := fun _ _ => trivial

private theorem sleep_tracks (hl : Lags job stored) (h : Stored c stored s) :
    Tracks c w job.id (sleep >>= fun _ => .ret (.again job)) (Turned c job.id) s :=
  perform_tracks h hl.id_eq fun _ _ _ ha hp => again_tracks hl (ha.of_db hp.1.1)

private theorem publishAndGo_tracks {state : JobState} (h : Stored c { job with state } s) :
    Tracks c w job.id (publishAndGo job state) (Turned c job.id) s := by
  refine perform_tracks h rfl fun a reply b ha hp => ?_
  split
  · exact stop_tracks
  · exact again_tracks (Or.inl rfl) (ha.of_db hp.1.1)

private theorem driverState_tracks (hl : Lags job stored) (h : Stored c stored s)
    {f : Option JobState → Driver Turn}
    (hnone : ∀ b, Stored c stored b → Tracks c w job.id (f none) (Turned c job.id) b)
    (hsome : ∀ b state, Stored c { job with state } b → Tracks c w job.id (f (some state)) (Turned c job.id) b) :
    Tracks c w job.id (driverState job.id >>= f) (Turned c job.id) s := by
  change Tracks c w job.id (Prog.perform (Op.get job.id) >>= _) _ s
  refine perform_tracks h hl.id_eq fun a reply b ha hp => ?_
  obtain ⟨hdb, hreply⟩ := hp.1.1
  have hb := ha.of_db hdb
  cases reply with
  | error error => exact hnone b hb
  | ok found =>
    rcases hreply with he | ⟨message, he⟩
    · have hfound : found = stored := by
        rw [← hl.id_eq, ha.2] at he
        exact Except.ok.inj he
      refine hsome b found.state ?_
      rw [← hl.with_state, hfound]
      exact hb
    · cases he

theorem settle_tracks {result : Except DriverError JobState} (h : Tracked c w job result s) :
    Tracks c w job.id (settle job result) (Turned c job.id) s := by
  match result with
  | .ok next =>
    change Tracks c w job.id (if next ≠ job.state then publishAndGo job next
      else if job.state.isTerminal then .ret .stop else sleep >>= fun _ => .ret (.again job)) _ s
    split
    · exact publishAndGo_tracks h
    next he =>
      cases not_not.mp he
      split
      · exact stop_tracks
      · exact sleep_tracks (Or.inl rfl) h
  | .error .conflict =>
    obtain ⟨stored, hl, h⟩ := h
    exact driverState_tracks hl h (fun b hb => sleep_tracks hl hb) (fun b state hb => publishAndGo_tracks hb)
  | .error (.retryable message) =>
    obtain ⟨stored, hl, h⟩ := h
    exact sleep_tracks hl h
  | .error (.permanent message) =>
    obtain ⟨stored, hl, h⟩ : Synced c job s := by
      rcases h with ⟨h, -⟩ | ⟨inputFileId, other, startedAt, hs, h, -⟩
      · exact ⟨job, Or.inl rfl, h⟩
      · exact ⟨_, Or.inr ⟨inputFileId, other, startedAt, hs, rfl⟩, h⟩
    refine perform_tracks h hl.id_eq fun a reply b ha hp => ?_
    cases reply with
    | ok state =>
      have hb := (hp.1.stored_ok ha hl.id_eq.symm).1
      rw [hl.with_state] at hb
      exact perform_tracks hb rfl fun _ _ _ _ _ => stop_tracks
    | error error =>
      have hb := ha.of_db hp.2
      change Tracks c w job.id (if error.isConflict then _ else _) _ b
      split
      · exact driverState_tracks hl hb (fun u hu => again_tracks hl hu)
          (fun u state hu => publishAndGo_tracks hu)
      · exact sleep_tracks hl hb

end Rules
end Kaiion.Durable
