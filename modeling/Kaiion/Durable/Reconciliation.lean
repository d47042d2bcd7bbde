import Kaiion.Durable.FindBatch
import Kaiion.Durable.FleetSafety
import Kaiion.Durable.RowMachine

/-! What takes a job out of an uncertain submission. Only a batch that the search found does, as long
as the provider never refuses the batch list for good. -/
namespace Kaiion.Durable
open Foundation

/-- A search of the job's batch found this batch. -/
def Found (id : JobId) (batch : BatchObject) (log : List Event) : Prop :=
  ∃ w auth after, .performed w (.findBatch auth id) (.ok (some batch)) after ∈ log

/-- A search of the job's batch failed for good. -/
def Refused (id : JobId) (log : List Event) : Prop :=
  ∃ w auth error after, .performed w (.findBatch auth id) (.error error) after ∈ log ∧ error.retryable = false

/-- A statement against an uncertain submission submits a batch that was found, or follows a search
that failed for good. -/
def Transition.Justified (t : Transition) (log : List Event) : Prop :=
  t.expected = .submissionUncertain → Refused t.id log ∨
    ∃ expected batch, t = .markSubmitted t.id expected ⟨batch.id⟩ ∧ Found t.id batch log

/-- The log only grows. -/
def Longer (s s' : World) : Prop := ∃ events, s'.log = events ++ s.log

def Justifies (s s' : World) : Prop :=
  ∀ w t reply after, s'.log = .performed w (.transition t) reply after :: s.log → t.Justified s.log

/-- Whatever the program does to an uncertain submission is justified. -/
abbrev Accounts {α : Type} (c : Codec) (w : Nat) (p : Driver α) (post : α → World → Prop) (s : World) : Prop :=
  Prog.Safe Longer Justifies (World.Performs c w) p post s

theorem Longer.refl (s : World) : Longer s s := ⟨[], rfl⟩

theorem Longer.trans {a b d : World} (h : Longer a b) (h' : Longer b d) : Longer a d := by
  obtain ⟨events, he⟩ := h
  obtain ⟨events', he'⟩ := h'
  exact ⟨events' ++ events, by rw [he', he, List.append_assoc]⟩

theorem Refused.longer {id : JobId} {s s' : World} (h : Refused id s.log) (hl : Longer s s') : Refused id s'.log := by
  obtain ⟨w, auth, error, after, hmem, hretry⟩ := h
  obtain ⟨events, he⟩ := hl
  exact ⟨w, auth, error, after, he ▸ List.mem_append_right _ hmem, hretry⟩

/-- A statement that replies with a state has written its target. -/
theorem Transition.run_reply {c : Codec} {now : Timestamp} {db : Database} {t : Transition} {state : JobState}
    (h : (t.run c now db).2 = .ok state) : statusOf state = t.target := by
  rw [t.run_eq c now db] at h
  unfold Database.transition at h
  split at h
  · cases h
  · split at h
    next row _ _ =>
      cases htry : (t.set c now row).tryFrom c with
      | error error =>
        dsimp only at h
        rw [htry] at h
        cases h
      | ok job =>
        dsimp only at h
        rw [htry] at h
        cases h
        rw [(JobRow.tryFrom_ok htry).2.2, t.set_status]
    · cases h

section Rules
variable {c : Codec} {w : Nat} {job : Job} {α : Type} {s : World} {post : α → World → Prop}

/-- What `advance` leaves behind: an uncertain submission fails for good only after such a search. -/
def Accounted (job : Job) (result : Except DriverError JobState) (s : World) : Prop :=
  ∀ message, result = .error (.permanent message) → statusOf job.state = .submissionUncertain → Refused job.id s.log

/-- An operation that is no statement. -/
private theorem perform_accounts {op : Op} {f : Op.Reply op → Driver α} (hop : ∀ t, op ≠ .transition t)
    (hnext : ∀ a reply b, World.Performs c w op a reply b → Accounts c w (f reply) post b) :
    Accounts c w (Prog.perform op >>= f) post s := by
  intro a _ reply b hp
  refine ⟨fun w' t reply' after heq => ?_, hnext a reply b hp⟩
  have he := hp.2.symm.trans heq
  simp only [List.cons.injEq, Event.performed.injEq] at he
  exact absurd he.1.2.1 (hop t)

/-- A justified statement. -/
private theorem transition_accounts {t : Transition} {f : Except PersistenceError JobState → Driver α}
    (P : World → Prop) (hP : P s) (stable : ∀ a b, P a → Longer a b → P b)
    (hjust : ∀ a, P a → t.Justified a.log)
    (hnext : ∀ a reply b, World.Performs c w (.transition t) a reply b → Accounts c w (f reply) post b) :
    Accounts c w (transition t >>= f) post s := by
  intro a ha reply b hp
  refine ⟨fun w' t' reply' after heq => ?_, hnext a reply b hp⟩
  have he := hp.2.symm.trans heq
  simp only [List.cons.injEq, Event.performed.injEq, Op.transition.injEq] at he
  obtain ⟨⟨-, rfl, -⟩, -⟩ := he
  exact hjust a (stable s a hP ha)

private theorem ret_accounts {result : Except DriverError JobState}
    (h : ∀ message, result ≠ .error (.permanent message)) : Accounts c w (.ret result) (Accounted job) s :=
  fun _ _ message heq => absurd heq (h message)

/-- A report about a job that is not in question. -/
private theorem certain_accounts (hstate : statusOf job.state ≠ .submissionUncertain)
    (result : Except DriverError JobState) : Accounts c w (.ret result) (Accounted job) s :=
  fun _ _ _ _ huncertain => absurd huncertain hstate

private theorem persist_accounts {t : Transition} (P : World → Prop) (hP : P s)
    (stable : ∀ a b, P a → Longer a b → P b) (hjust : ∀ a, P a → t.Justified a.log) :
    Accounts c w (persist t) (Accounted job) s := by
  refine transition_accounts P hP stable hjust fun a reply b hp => ?_
  cases reply with
  | error error =>
    refine ret_accounts fun message heq => ?_
    exact classifyPersistence_ne_permanent error message (Except.error.inj heq)
  | ok state => exact ret_accounts fun message heq => (by cases heq)

/-- A statement that expects another status needs no justification. -/
private theorem persist_certain {t : Transition} (h : t.expected ≠ .submissionUncertain) :
    Accounts c w (persist t) (Accounted job) s :=
  persist_accounts (fun _ => True) trivial (fun _ _ _ _ => trivial) fun _ _ huncertain => absurd huncertain h

private theorem getFileContent_accounts (hstate : statusOf job.state ≠ .submissionUncertain) {auth : UpstreamAuth}
    {fileId : String} {f : String → Driver (Except DriverError JobState)}
    (hf : ∀ content b, Accounts c w (f content) (Accounted job) b) :
    Accounts c w (do
      match ← getFileContent auth fileId with
      | .error error => return .error (classifyProvider error)
      | .ok content => f content) (Accounted job) s := by
  refine perform_accounts (fun _ he => by cases he) fun a reply b _ => ?_
  cases reply with
  | error error => exact certain_accounts hstate _
  | ok content => exact hf content b

private theorem applyBatchStatus_accounts (hstate : statusOf job.state ≠ .submissionUncertain)
    (auth : UpstreamAuth) (batch : BatchObject) :
    Accounts c w (applyBatchStatus c auth job batch) (Accounted job) s := by
  unfold applyBatchStatus
  split
  · unfold applyCompleted
    split
    · exact getFileContent_accounts hstate fun content b => persist_certain hstate
    · exact certain_accounts hstate _
    · refine getFileContent_accounts hstate fun content b => ?_
      split
      · exact certain_accounts hstate _
      · split
        · exact certain_accounts hstate _
        · exact persist_certain hstate
  · split
    · split
      · exact getFileContent_accounts hstate fun content b => persist_certain hstate
      · exact persist_certain hstate
    · exact certain_accounts hstate _

private theorem submit_accounts (auth : UpstreamAuth) (inputFileId : FileId)
    (hstate : job.state = .uploaded inputFileId) (requestBody : Value) :
    Accounts c w (advance c auth requestBody job) (Accounted job) s := by
  have hcertain : statusOf job.state ≠ .submissionUncertain := by
    rw [hstate]
    exact fun h => by cases h
  simp only [advance, hstate]
  refine transition_accounts (fun _ => True) trivial (fun _ _ _ _ => trivial)
    (fun _ _ h => by cases h) fun a reply b hp => ?_
  cases reply with
  | error error => exact certain_accounts hcertain _
  | ok submitting =>
    obtain ⟨now, fault, hf⟩ := hp.1
    have hsubmitting : statusOf submitting = .submitting :=
      Transition.run_reply (congrArg Prod.snd (Fault.apply_ok hf))
    refine perform_accounts (fun _ he => by cases he) fun a' reply b' _ => ?_
    cases reply with
    | ok batch =>
      refine persist_certain fun h => ?_
      cases hsubmitting.symm.trans h
    | error error =>
      change Accounts c w (if error.retryable then persist (.markSubmissionUncertain job.id)
        else .ret (.error (.permanent error.message))) _ b'
      split
      · exact persist_certain fun h => by cases h
      · exact certain_accounts hcertain _

/-- The search of an uncertain submission is what decides about it. -/
private theorem reconcile_accounts (auth : UpstreamAuth) {inputFileId : FileId} {startedAt : Timestamp}
    (hstate : job.state = .submissionUncertain inputFileId startedAt) (requestBody : Value) :
    Accounts c w (advance c auth requestBody job) (Accounted job) s := by
  simp only [advance, hstate]
  refine perform_accounts (fun _ he => by cases he) fun a reply b hp => ?_
  cases reply with
  | error error =>
    intro t ht message heq _
    have hretry : error.retryable = false := by
      unfold classifyProvider at heq
      cases hretry : error.retryable with
      | false => rfl
      | true =>
        rw [hretry] at heq
        cases heq
    exact Refused.longer ⟨w, auth, error, b.db, hp.2 ▸ List.mem_cons_self, hretry⟩ ht
  | ok found =>
    cases found with
    | none => exact ret_accounts fun message heq => (by cases heq)
    | some batch =>
      refine persist_accounts (fun t => Found job.id batch t.log)
        ⟨w, auth, b.db, hp.2 ▸ List.mem_cons_self⟩ ?_ fun t ht _ => .inr ⟨_, batch, rfl, ht⟩
      rintro t u ⟨w', auth', after, hmem⟩ ⟨events, he⟩
      exact ⟨w', auth', after, he ▸ List.mem_append_right _ hmem⟩

theorem advance_accounts (auth : UpstreamAuth) (requestBody : Value) (job : Job) (s : World) :
    Accounts c w (advance c auth requestBody job) (Accounted job) s := by
  cases hstate : job.state with
  | uploaded inputFileId => exact submit_accounts auth inputFileId hstate requestBody
  | submissionUncertain inputFileId startedAt => exact reconcile_accounts auth hstate requestBody
  | queued =>
    have hcertain : statusOf job.state ≠ .submissionUncertain := by
      rw [hstate]
      exact fun h => by cases h
    simp only [advance, hstate]
    refine perform_accounts (fun _ he => by cases he) fun a reply b _ => ?_
    cases reply with
    | error error => exact certain_accounts hcertain _
    | ok fileId => exact persist_certain fun h => by cases h
  | submitting inputFileId startedAt =>
    simp only [advance, hstate]
    exact persist_certain fun h => by cases h
  | submitted batchId =>
    have hcertain : statusOf job.state ≠ .submissionUncertain := by
      rw [hstate]
      exact fun h => by cases h
    simp only [advance, hstate]
    refine perform_accounts (fun _ he => by cases he) fun a reply b _ => ?_
    cases reply with
    | error error => exact certain_accounts hcertain _
    | ok batch => exact applyBatchStatus_accounts hcertain auth batch
  | terminal outcome =>
    simp only [advance, hstate]
    exact ret_accounts fun message heq => (by cases heq)

private theorem publishAndGo_accounts (state : JobState) :
    Accounts c w (publishAndGo job state) (fun _ _ => True) s := by
  refine perform_accounts (fun _ he => by cases he) fun a reply b _ => ?_
  split
  · exact fun _ _ => trivial
  · exact fun _ _ => trivial

private theorem sleep_accounts (turn : Turn) :
    Accounts c w (sleep >>= fun _ => .ret turn) (fun _ _ => True) s :=
  perform_accounts (fun _ he => by cases he) fun _ _ _ _ _ _ => trivial

private theorem driverState_accounts {f : Option JobState → Driver Turn}
    (hf : ∀ found b, Accounts c w (f found) (fun _ _ => True) b) :
    Accounts c w (driverState job.id >>= f) (fun _ _ => True) s := by
  change Accounts c w (Prog.perform (Op.get job.id) >>= _) _ s
  refine perform_accounts (fun _ he => by cases he) fun a reply b _ => ?_
  cases reply with
  | error error => exact hf none b
  | ok found => exact hf (some found.state) b

theorem settle_accounts {result : Except DriverError JobState} (h : Accounted job result s) :
    Accounts c w (settle job result) (fun _ _ => True) s := by
  match result with
  | .ok next =>
    change Accounts c w (if next ≠ job.state then publishAndGo job next
      else if job.state.isTerminal then .ret .stop else sleep >>= fun _ => .ret (.again job)) _ s
    split
    · exact publishAndGo_accounts next
    · split
      · exact fun _ _ => trivial
      · exact sleep_accounts _
  | .error .conflict =>
    refine driverState_accounts fun found b => ?_
    cases found with
    | some state => exact publishAndGo_accounts state
    | none => exact sleep_accounts _
  | .error (.retryable message) => exact sleep_accounts _
  | .error (.permanent message) =>
    -- The failure is stored over whatever state the loop variable has.
    refine transition_accounts (fun t => statusOf job.state = .submissionUncertain → Refused job.id t.log)
      (fun huncertain => h message rfl huncertain) (fun a b ha hl huncertain => (ha huncertain).longer hl)
      (fun a ha huncertain => .inl (ha huncertain)) fun a reply b hp => ?_
    cases reply with
    | ok state => exact perform_accounts (fun _ he => by cases he) fun _ _ _ _ _ _ => trivial
    | error error =>
      change Accounts c w (if error.isConflict then _ else _) _ b
      split
      · refine driverState_accounts fun found b' => ?_
        cases found with
        | some state => exact publishAndGo_accounts state
        | none => exact fun _ _ => trivial
      · exact sleep_accounts _

end Rules

def Worker.Accountable (c : Codec) (w : Nat) (worker : Worker) (s : World) : Prop :=
  match worker.phase with
  | .advancing rest => Accounts c w rest (Accounted worker.job) s
  | .settling rest => Accounts c w rest (fun _ _ => True) s

def Fleet.Accountable (c : Codec) (fleet : Fleet) : Prop :=
  ∀ w worker, fleet.workers w = some worker → worker.Accountable c w fleet.world

section Steps
variable {c : Codec} {w : Nat} {fleet fleet' : Fleet}

theorem Worker.Accountable.longer {worker : Worker} {s s' : World} (h : worker.Accountable c w s)
    (hl : Longer s s') : worker.Accountable c w s' := by
  have htrans : ∀ a b d : World, Longer a b → Longer b d → Longer a d := fun _ _ _ => Longer.trans
  unfold Worker.Accountable at h ⊢
  generalize worker.phase = phase at h
  cases phase with
  | advancing rest => exact Prog.Safe.of_rely htrans h hl
  | settling rest => exact Prog.Safe.of_rely htrans h hl

/-- A worker's next statement is justified. -/
theorem Worker.Accountable.perform {worker : Worker} {op : Op} {reply : Op.Reply op} {phase : Phase}
    {s s' : World} (h : worker.Accountable c w s) (ht : worker.phase.Takes op reply phase)
    (hp : World.Performs c w op s reply s') :
    Justifies s s' ∧ Worker.Accountable c w { worker with phase } s' := by
  unfold Worker.Accountable at h
  generalize worker.phase = old at h ht
  cases ht with
  | advancing => exact Prog.Safe.step Longer.refl h hp
  | settling => exact Prog.Safe.step Longer.refl h hp

private theorem accountable_setWorker (h : fleet.Accountable c) {world : World}
    (hl : Longer fleet.world world) {copies : List Job} {nextWorker : Nat} {worker : Option Worker}
    (hw : ∀ found, worker = some found → found.Accountable c w world) :
    Fleet.Accountable c ⟨world, copies, fleet.setWorker w worker, nextWorker⟩ := by
  intro other found hfound
  simp only [Fleet.setWorker] at hfound
  split at hfound
  next heq => exact heq ▸ hw found hfound
  · exact (h other found hfound).longer hl

/-- Every step keeps the workers accountable. -/
theorem Fleet.Step.accountable (h : Fleet.Step c fleet fleet') (hf : fleet.Accountable c) :
    fleet'.Accountable c := by
  cases h with
  | enqueue uuid authHash provider request fault fresh db committed =>
    exact fun w worker found => (hf w worker found).longer ⟨[_], rfl⟩
  | read => exact hf
  | subscribe auth requestBody job held live =>
    refine accountable_setWorker hf ⟨[_], rfl⟩ fun found hfound => ?_
    cases hfound
    exact advance_accounts auth requestBody job _
  | perform w worker op reply phase db found takes answers =>
    have performs : World.Performs c w op fleet.world reply
        ⟨db, .performed w op reply db :: fleet.world.log⟩ := ⟨answers, rfl⟩
    refine accountable_setWorker hf ⟨[_], rfl⟩ fun other hother => ?_
    cases hother
    exact ((hf w worker found).perform takes performs).2
  | advanced w worker result found done =>
    refine accountable_setWorker hf (.refl _) fun other hother => ?_
    cases hother
    have h := hf w worker found
    unfold Worker.Accountable at h
    rw [done] at h
    exact settle_accounts (Prog.Safe.result Longer.refl h)
  | looped w worker job found done =>
    refine accountable_setWorker hf (.refl _) fun other hother => ?_
    cases hother
    exact advance_accounts worker.auth worker.requestBody job _
  | stopped w worker found done =>
    exact accountable_setWorker hf (.refl _) fun other hother => (by cases hother)
  | crash => exact fun _ _ found => by cases found

/-- What a step does to an uncertain submission: nothing, or a justified statement. -/
private theorem Fleet.Step.uncertain (h : Fleet.Step c fleet fleet') (hs : fleet.Sound c)
    (hf : fleet.Accountable c) {id : JobId} {row : JobRow} (found : fleet.world.db.row? id = some row)
    (huncertain : row.status = .submissionUncertain) :
    fleet'.world.db.row? id = some row ∨ Refused id fleet.world.log ∨
      ∃ batch, Found id batch fleet.world.log ∧ fleet'.world.db.row? id = some { row with
        status := .submitted, inputFileId := none, submissionStartedAt := none, batchId := some batch.id } := by
  cases h with
  | enqueue uuid authHash provider request fault fresh db committed =>
    refine .inl ?_
    rw [← committed]
    rcases fault.apply_fst ProxyError.database fleet.world.db
      (fleet.world.db.enqueue c uuid authHash provider request) with hdb | hdb
    · rw [hdb]
      exact found
    · rw [hdb]
      exact Database.enqueue_row? c found uuid authHash provider request
  | perform w worker op reply phase db hworker takes answers =>
    have performs : World.Performs c w op fleet.world reply
        ⟨db, .performed w op reply db :: fleet.world.log⟩ := ⟨answers, rfl⟩
    rcases performs.db_cases with hsame | ⟨t, now, rfl, hdb⟩
    · exact .inl (hsame ▸ found)
    · have hjust := ((hf w worker hworker).perform takes performs).1 w t reply db rfl
      change db = _ at hdb
      rcases t.run_cases c now hs.wellFormed.uniqueIds with ⟨error, hrun, -⟩ | ⟨row', hrow', haffects, -, hrun⟩
      · rw [hrun] at hdb
        exact .inl (hdb ▸ found)
      · rw [hrun] at hdb
        dsimp only at hdb ⊢
        have hset : (t.set c now row').id = t.id.text := (t.set_id c now row').trans (Database.row?_id hrow')
        rw [hdb]
        by_cases hid : id = t.id
        · rw [hid, hrow'] at found
          cases found
          have hexpected : t.expected = .submissionUncertain :=
            (Transition.affects_status haffects).symm.trans huncertain
          rcases hjust hexpected with hrefused | ⟨expected, batch, ht, hfound⟩
          · exact .inr (.inl (hid ▸ hrefused))
          · refine .inr (.inr ⟨batch, hid ▸ hfound, ?_⟩)
            rw [hid, Database.replace_row? hrow' hset, ht]
            rfl
        · rw [Database.replace_row?_ne hset hid]
          exact .inl found
  | _ => exact .inl found

end Steps

/-- A step in which the search of the batch list is `find_batch`, over replies that are allowed. -/
def Fleet.SearchStep (c : Codec) (p : Payloads) (allowed : HttpReply → Prop) (fleet fleet' : Fleet) : Prop :=
  Fleet.Step c fleet fleet' ∧ ∀ w auth id reply after,
    fleet'.world.log = .performed w (.findBatch auth id) reply after :: fleet.world.log →
    ∃ answers requests, (∀ turn cursor, allowed (answers turn cursor)) ∧
      searchBatches p id answers requests none = some reply

abbrev Fleet.SearchRun (c : Codec) (p : Payloads) (allowed : HttpReply → Prop) : Fleet → Fleet → Prop :=
  Relation.ReflTransGen (Fleet.SearchStep c p allowed)

/-- The provider listed the batch with the job's id in a search of the job's batch. -/
def Listed (p : Payloads) (id : JobId) (batch : BatchObject) (log : List Event) : Prop :=
  Found id batch log ∧ batch.carries id = true ∧
    ∃ reply page, p.parseJson reply = .ok page ∧ batch ∈ page.data

/-- Every search in the log is `find_batch`, over replies that are allowed. -/
private def Searched (p : Payloads) (allowed : HttpReply → Prop) (log : List Event) : Prop :=
  ∀ w auth id reply after, .performed w (.findBatch auth id) reply after ∈ log →
    ∃ answers requests, (∀ turn cursor, allowed (answers turn cursor)) ∧
      searchBatches p id answers requests none = some reply

section Runs
variable {c : Codec} {p : Payloads} {allowed : HttpReply → Prop} {fleet fleet' : Fleet} {id : JobId}

/-- A step adds at most one event. -/
private theorem Fleet.Step.log (h : Fleet.Step c fleet fleet') :
    fleet'.world.log = fleet.world.log ∨ ∃ event, fleet'.world.log = event :: fleet.world.log := by
  cases h with
  | enqueue | subscribe | perform => exact .inr ⟨_, rfl⟩
  | _ => exact .inl rfl

private theorem Fleet.SearchStep.searched (h : fleet.SearchStep c p allowed fleet')
    (hs : Searched p allowed fleet.world.log) : Searched p allowed fleet'.world.log := by
  intro w auth id reply after hmem
  rcases h.1.log with hsame | ⟨event, hevent⟩
  · exact hs w auth id reply after (hsame ▸ hmem)
  · rw [hevent] at hmem
    rcases List.mem_cons.mp hmem with rfl | hmem
    · exact h.2 w auth id reply after hevent
    · exact hs w auth id reply after hmem

/-- Without a reply that refuses the list, no search fails for good. -/
private theorem Searched.not_refused {log : List Event} (h : Searched p (fun reply => ¬ reply.Refuses p) log) :
    ¬ Refused id log := by
  rintro ⟨w, auth, error, after, hmem, hretry⟩
  obtain ⟨answers, requests, hallowed, hsearch⟩ := h w auth id _ after hmem
  obtain ⟨turn, cursor, ⟨found, hparse, heq⟩ | ⟨page, -, heq⟩⟩ := searchBatches_origin hsearch
  · cases heq
    exact hallowed turn cursor (refuses_iff.mpr ⟨error, hparse, hretry⟩)
  · cases heq

/-- What a search found was listed with the job's id. -/
private theorem Searched.listed {log : List Event} (h : Searched p allowed log) {batch : BatchObject}
    (hfound : Found id batch log) : Listed p id batch log := by
  refine ⟨hfound, ?_⟩
  obtain ⟨w, auth, after, hmem⟩ := hfound
  obtain ⟨answers, requests, -, hsearch⟩ := h w auth id _ after hmem
  obtain ⟨turn, cursor, ⟨found, hparse, heq⟩ | ⟨page, hparse, heq⟩⟩ := searchBatches_origin hsearch
  · cases heq
  · have hfind := (Except.ok.inj heq).symm
    exact ⟨List.find?_some hfind, answers turn cursor, page, hparse, List.mem_of_find?_eq_some hfind⟩

/-- What holds along a run of searches. -/
private structure Reconciled (c : Codec) (p : Payloads) (allowed : HttpReply → Prop) (fleet : Fleet) : Prop where
  sound : fleet.Sound c
  accountable : fleet.Accountable c
  searched : Searched p allowed fleet.world.log

private theorem Fleet.SearchRun.reconciled (h : Fleet.SearchRun c p allowed fleet fleet')
    (hr : Reconciled c p allowed fleet) : Reconciled c p allowed fleet' := by
  induction h with
  | refl => exact hr
  | tail _ hstep ih =>
    exact ⟨hstep.1.sound ih.sound, hstep.1.accountable ih.accountable, hstep.searched ih.searched⟩

private theorem Fleet.Initial.reconciled (h : fleet.Initial) : Reconciled c p allowed fleet where
  sound := h.sound
  accountable w worker found := by
    rw [h.workers] at found
    cases found
  searched w auth id reply after hmem := by
    rw [h.log] at hmem
    cases List.mem_singleton.mp hmem

/-- In every run in which no reply about the batch list is taken for a permanent failure, a job whose
submission is uncertain keeps its row until a search has found a listed batch with the job's id; then it is
submitted with the id of that batch. -/
theorem uncertain_submission_explicit {boot later : Fleet} (hi : boot.Initial)
    (hrun : Fleet.SearchRun c p (fun reply => ¬ reply.Refuses p) boot fleet)
    (hlater : Fleet.SearchRun c p (fun reply => ¬ reply.Refuses p) fleet later) {row : JobRow}
    (found : fleet.world.db.row? id = some row) (uncertain : row.status = .submissionUncertain) :
    later.world.db.row? id = some row ∨
    ∃ mid next batch, Fleet.SearchRun c p (fun reply => ¬ reply.Refuses p) fleet mid ∧
      Fleet.SearchStep c p (fun reply => ¬ reply.Refuses p) mid next ∧
      Fleet.SearchRun c p (fun reply => ¬ reply.Refuses p) next later ∧
      mid.world.db.row? id = some row ∧ Listed p id batch mid.world.log ∧
      next.world.db.row? id = some { row with
        status := .submitted, inputFileId := none, submissionStartedAt := none, batchId := some batch.id } := by
  have hstart := Fleet.SearchRun.reconciled hrun hi.reconciled
  induction hlater with
  | refl => exact .inl found
  | tail hmid hstep ih =>
    rename_i mid next
    rcases ih with hkept | ⟨before, after, batch, hbefore, hsubmits, hafter, hrow⟩
    · have hnow := Fleet.SearchRun.reconciled hmid hstart
      rcases hstep.1.uncertain hnow.sound hnow.accountable hkept uncertain with
        hsame | hrefused | ⟨batch, hfound, hsubmitted⟩
      · exact .inl hsame
      · exact absurd hrefused hnow.searched.not_refused
      · exact .inr ⟨mid, next, batch, hmid, hstep, .refl, hkept, hnow.searched.listed hfound, hsubmitted⟩
    · exact .inr ⟨before, after, batch, hbefore, hsubmits, hafter.tail hstep, hrow⟩

end Runs

section Witness

private def uncertainRow : JobRow :=
  { id := "job", authHash := "auth", requestHash := "request", model := "model", status := .submissionUncertain
    inputFileId := some "file", batchId := none, submissionStartedAt := some "now", outcomeJson := none }

private def uncertainJob : Job := ⟨⟨"job"⟩, "model", .submissionUncertain ⟨"file"⟩ ⟨"now"⟩⟩

private def caller : UpstreamAuth := ⟨"Bearer key", none, none⟩

private def kept : BatchObject :=
  { id := "batch", status := "validating", outputFileId := none, errorFileId := none
    metadata := some (.object [("kaiion_job_id", .string "job")]) }

private def listed : String :=
  "\x7b\"data\":[\x7b\"id\":\"batch\",\"status\":\"validating\",\"metadata\":\x7b\"kaiion_job_id\":\"job\"\x7d\x7d]\x7d"

private def listing : Payloads :=
  { decode := fun body => if body.data = listed.toUTF8.data then .ok ⟨[kept], false, none⟩ else .error "expected value"
    lossy := fun _ => "invalid key" }

/-- The store holds one job whose submission is uncertain. -/
private def rebooted : Fleet := ⟨⟨⟨[uncertainRow], []⟩, [.stored ⟨[uncertainRow], []⟩]⟩, [], fun _ => none, 0⟩

/-- A worker has taken the job up again. -/
private noncomputable def resumed : Fleet :=
  ⟨⟨⟨[uncertainRow], []⟩, [.subscribed 0 uncertainJob, .stored ⟨[uncertainRow], []⟩]⟩, [uncertainJob],
    rebooted.setWorker 0 (some (.turn Json.compact caller .null uncertainJob)), 1⟩

private theorem rebooted_initial : rebooted.Initial := by
  refine ⟨⟨?_, ?_, ?_, ?_, ?_⟩, rfl, rfl, rfl⟩ <;> simp [rebooted, Database.UniqueIds]

section Steps
variable {c : Codec} {p : Payloads} {allowed : HttpReply → Prop} {start fleet : Fleet} (w : Nat) {worker : Worker}
variable {phase : Phase}

/-- The fleet after an operation of a worker. -/
private def Fleet.after (fleet : Fleet) (w : Nat) (worker : Worker) (op : Op) (reply : Op.Reply op) (phase : Phase)
    (db : Database) : Fleet :=
  { fleet with
    world := ⟨db, .performed w op reply db :: fleet.world.log⟩
    workers := fleet.setWorker w (some { worker with phase }) }

private theorem run_other (hrun : Fleet.SearchRun c p allowed start fleet) (op : Op) (reply : Op.Reply op)
    (db : Database) (found : fleet.workers w = some worker) (takes : worker.phase.Takes op reply phase)
    (answers : op.Answers c fleet.world.db reply db) (hother : ∀ auth id, op ≠ .findBatch auth id) :
    Fleet.SearchStep c p allowed fleet (fleet.after w worker op reply phase db) ∧
      Fleet.SearchRun c p allowed start (fleet.after w worker op reply phase db) := by
  have hstep : Fleet.SearchStep c p allowed fleet (fleet.after w worker op reply phase db) := by
    refine ⟨.perform fleet w worker op reply phase db found takes answers, fun w' auth id reply' after heq => ?_⟩
    simp only [Fleet.after, List.cons.injEq, Event.performed.injEq] at heq
    exact absurd heq.1.2.1 (hother auth id)
  exact ⟨hstep, hrun.tail hstep⟩

private theorem run_search (hrun : Fleet.SearchRun c p allowed start fleet) (auth : UpstreamAuth) (id : JobId)
    (reply : Except ProviderError (Option BatchObject)) (answer : HttpReply) (hallowed : allowed answer)
    (hsearch : searchBatches p id (fun _ _ => answer) 1 none = some reply)
    (found : fleet.workers w = some worker) (takes : worker.phase.Takes (.findBatch auth id) reply phase) :
    Fleet.SearchRun c p allowed start (fleet.after w worker (.findBatch auth id) reply phase fleet.world.db) := by
  refine hrun.tail ⟨.perform fleet w worker (.findBatch auth id) reply phase fleet.world.db found takes rfl,
    fun w' auth' id' reply' after heq => ?_⟩
  simp only [Fleet.after, List.cons.injEq, Event.performed.injEq, Op.findBatch.injEq] at heq
  obtain ⟨⟨-, ⟨-, rfl⟩, hreply, -⟩, -⟩ := heq
  cases hreply
  exact ⟨fun _ _ => answer, 1, fun _ _ => hallowed, hsearch⟩

private theorem run_advanced (hrun : Fleet.SearchRun c p allowed start fleet) {result : Except DriverError JobState}
    (found : fleet.workers w = some worker) (done : worker.phase = .advancing (.ret result)) :
    Fleet.SearchRun c p allowed start { fleet with
      workers := fleet.setWorker w (some { worker with phase := .settling (settle worker.job result) }) } :=
  hrun.tail ⟨.advanced fleet w worker result found done,
    fun _ _ _ _ _ heq => absurd heq.symm (List.cons_ne_self _ _)⟩

private theorem resumed_run : Fleet.SearchRun Json.compact p allowed rebooted resumed := by
  have hread : Fleet.SearchStep Json.compact p allowed rebooted { rebooted with copies := [uncertainJob] } :=
    ⟨.read rebooted ⟨"job"⟩ uncertainJob rfl, fun _ _ _ _ _ heq => absurd heq.symm (List.cons_ne_self _ _)⟩
  refine (Relation.ReflTransGen.single hread).tail
    ⟨.subscribe _ caller .null uncertainJob List.mem_cons_self rfl, fun _ _ _ _ _ heq => ?_⟩
  cases (List.cons.inj heq).1

end Steps

private abbrev tolerated (reply : HttpReply) : Prop := ¬ reply.Refuses listing

/-- The batch is found and the job submitted. -/
theorem uncertain_submission_explicit_found : ∃ later : Fleet,
    later.world.db.row? ⟨"job"⟩ ≠ some uncertainRow ∧
    (later.world.db.row? ⟨"job"⟩ = some uncertainRow ∨
    ∃ mid next batch, Fleet.SearchRun Json.compact listing tolerated resumed mid ∧
      Fleet.SearchStep Json.compact listing tolerated mid next ∧ Fleet.SearchRun Json.compact listing tolerated next later ∧
      mid.world.db.row? ⟨"job"⟩ = some uncertainRow ∧ Listed listing ⟨"job"⟩ batch mid.world.log ∧
      next.world.db.row? ⟨"job"⟩ = some { uncertainRow with
        status := .submitted, inputFileId := none, submissionStartedAt := none, batchId := some batch.id }) := by
  have htolerated : tolerated (.answered ⟨200, "200 OK"⟩ listed.toUTF8) := by
    rintro ⟨error, hdecode⟩
    cases hdecode
  let submitted : JobRow := { uncertainRow with
    status := .submitted, inputFileId := none, submissionStartedAt := none, batchId := some "batch" }
  have hsearched := run_search 0 (.refl : Fleet.SearchRun Json.compact listing tolerated resumed resumed)
    caller ⟨"job"⟩ (.ok (some kept)) (.answered ⟨200, "200 OK"⟩ listed.toUTF8) htolerated rfl rfl (.advancing _)
  obtain ⟨-, hsubmitted⟩ := run_other 0 hsearched (.transition (.markSubmitted ⟨"job"⟩ uncertainJob.state ⟨"batch"⟩))
    (Except.ok (.submitted ⟨"batch"⟩)) ⟨[submitted], []⟩ rfl (.advancing _) ⟨⟨"now"⟩, .none, rfl⟩ (fun _ _ h => by cases h)
  refine ⟨_, ?_, uncertain_submission_explicit rebooted_initial resumed_run hsubmitted rfl rfl⟩
  intro h
  cases congrArg (Option.map JobRow.status) h

/-- A list request answered with 401 stores the failure of a job whose submission is uncertain. -/
theorem refused_search_fails_job : ∃ before after : Fleet, rebooted.Initial ∧
    Fleet.SearchRun Json.compact listing (fun _ => True) rebooted before ∧
    Fleet.SearchStep Json.compact listing (fun _ => True) before after ∧
    (before.world.db.row? ⟨"job"⟩).map JobRow.status = some .submissionUncertain ∧
    (after.world.db.row? ⟨"job"⟩).map JobRow.status = some .failed := by
  let error := classifyStatus ⟨401, "401 Unauthorized"⟩ "invalid key"
  let outcome : StoredOutcome := .failed (failedResponse "model" error.message)
  have hunique : (Database.mk [uncertainRow] []).UniqueIds := List.nodup_singleton _
  have hencodes : uncertainRow.Encodes Json.compact uncertainJob.state := ⟨rfl, rfl, rfl, rfl, rfl⟩
  obtain ⟨-, hstored⟩ := @storeOutcome_run _ _ _ _ hunique ⟨"job"⟩ rfl hencodes outcome (Json.compact_roundTrips _) ⟨"now"⟩
  have hsearched := run_search 0 (resumed_run : Fleet.SearchRun Json.compact listing (fun _ => True) rebooted resumed)
    caller ⟨"job"⟩ (.error error) (.answered ⟨401, "401 Unauthorized"⟩ "".toUTF8) trivial rfl rfl (.advancing _)
  have hsettling := run_advanced 0 hsearched rfl rfl
  obtain ⟨hfails, -⟩ := run_other 0 hsettling (.transition (.storeOutcome ⟨"job"⟩ uncertainJob.state outcome))
    (Except.ok (.terminal outcome)) _ rfl (.settling _) ⟨⟨"now"⟩, .none, hstored⟩ (fun _ _ h => by cases h)
  exact ⟨_, _, rebooted_initial, hsettling, hfails, rfl, rfl⟩

end Witness

end Kaiion.Durable
