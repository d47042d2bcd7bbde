import Kaiion.Durable.WorkerContract

/-! One turn of the driver loop keeps the worker contract, on every exit. -/
namespace Kaiion.Durable
open Foundation

/-- What `advance` leaves behind: the loop variable still valid, and a new state reached. -/
def Advanced (c : Codec) (w : Nat) (job : Job) (result : Except DriverError JobState) (s : World) : Prop :=
  Holding c w job s ∧ ∀ next, result = .ok next →
    next = job.state ∨ (Reached c job.id next s ∧ job.state.stage ≤ next.stage)

/-- The last state worker `w` announced is terminal and is what the job's row decodes to. -/
def Finished (c : Codec) (w : Nat) (id : JobId) (s : World) : Prop :=
  ∃ state row, (published w s.log).head? = some state ∧ s.db.row? id = some row ∧
    row.status.stage = 5 ∧ (row.tryFrom c).map Job.state = .ok state

/-- What a turn leaves behind: a live job to go round with, or a finished row. -/
def Settled (c : Codec) (w : Nat) (id : JobId) (turn : Turn) (s : World) : Prop :=
  match turn with
  | .again job => job.id = id ∧ job.state.isTerminal = false ∧ Holding c w job s
  | .stop => Finished c w id s

section Rules
variable {c : Codec} {w : Nat} {job : Job} {α : Type} {s : World} {post : α → World → Prop}

theorem Advanced.rely {result : Except DriverError JobState} {s s' : World}
    (h : Advanced c w job result s) (hr : Rely w s s') : Advanced c w job result s' := by
  obtain ⟨events, he, -⟩ := hr.log
  refine ⟨h.1.rely hr, fun next hnext => ?_⟩
  rcases h.2 next hnext with rfl | ⟨hreached, hle⟩
  · exact Or.inl rfl
  · exact Or.inr ⟨hreached.mono hr.forward ⟨events, he⟩, hle⟩

theorem Finished.rely {id : JobId} {s s' : World} (h : Finished c w id s) (hr : Rely w s s') :
    Finished c w id s' := by
  obtain ⟨state, row, hshown, hrow, hstage, hdecodes⟩ := h
  obtain ⟨row', hrow', hf⟩ := hr.forward id row hrow
  exact ⟨state, row', hr.published ▸ hshown, hrow', hf.eq_of_terminal hstage ▸ ⟨hstage, hdecodes⟩⟩

/-- A job still held is a job to go round with. -/
private theorem again_upholds (h : Holding c w job s) (live : job.state.isTerminal = false) :
    Upholds c w job.id (.ret (.again job)) (Settled c w job.id) s :=
  fun _ hr => ⟨rfl, live, h.rely hr⟩

/-- An operation that neither announces a state nor calls create_batch. -/
private theorem perform_upholds {op : Op} {f : Op.Reply op → Driver α} (h : Holding c w job s)
    (ha : ∀ log, op.Allowed c w job.id log) (hq : ∀ id state, op ≠ .publish id state)
    (hnext : ∀ a reply b, Holding c w job a → World.Performs c w op a reply b → Holding c w job b →
      Upholds c w job.id (f reply) post b) :
    Upholds c w job.id (Prog.perform op >>= f) post s :=
  Prog.Safe.call (Holding c w job) h (fun _ _ ha hr => ha.rely hr) fun a reply b hP hp =>
    ⟨⟨op, reply, hp, ha a.log⟩, hnext a reply b hP hp (hP.performed hp (ha a.log) hq)⟩

/-- Reporting anything but a new state. -/
private theorem ret_upholds (h : Holding c w job s) {result : Except DriverError JobState}
    (hr : ∀ next, result = .ok next → next = job.state) :
    Upholds c w job.id (.ret result) (Advanced c w job) s :=
  fun _ hrely => ⟨h.rely hrely, fun next hnext => Or.inl (hr next hnext)⟩

private theorem error_upholds (h : Holding c w job s) (error : DriverError) :
    Upholds c w job.id (.ret (.error error)) (Advanced c w job) s :=
  ret_upholds h (fun _ he => nomatch he)

/-- Persisting a later state of the worker's own job. -/
private theorem persist_upholds (h : Holding c w job s) {t : Transition} (hid : t.id = job.id)
    (ht : t.Advances) (hstage : job.state.stage ≤ t.target.stage) :
    Upholds c w job.id (persist t) (Advanced c w job) s := by
  refine perform_upholds h (fun _ => ⟨hid, ht⟩) (fun _ _ he => by cases he) fun a reply b ha hp hb => ?_
  cases reply with
  | error error => exact error_upholds hb _
  | ok state =>
    obtain ⟨hreached, hstatus⟩ := hp.transition_ok ha.wellFormed
    rw [hid] at hreached
    intro s' hr
    refine Advanced.rely ⟨hb, fun next hnext => ?_⟩ hr
    cases Except.ok.inj hnext
    exact Or.inr ⟨hreached, by rw [JobState.stage, JobState.stage, hstatus]; exact hstage⟩

/-- Storing an outcome for a live state is a step forward. -/
theorem Transition.storeOutcome_advances {state : JobState} (live : state.isTerminal = false)
    (id : JobId) (outcome : StoredOutcome) : (Transition.storeOutcome id state outcome).Advances := by
  have hfive : (encodeOutcome outcome).1.stage = 5 := by cases outcome <;> rfl
  have hne : state.stage ≠ 5 := by
    intro h
    rw [(JobState.isTerminal_iff state).mpr h] at live
    cases live
  have := (statusOf state).stage_le
  simp only [Transition.Advances, Transition.expected, Transition.target, hfive]
  simp only [JobState.stage] at hne
  omega

private theorem storeOutcome_upholds (h : Holding c w job s) (live : job.state.isTerminal = false)
    (outcome : StoredOutcome) :
    Upholds c w job.id (persist (.storeOutcome job.id job.state outcome)) (Advanced c w job) s :=
  have ht := Transition.storeOutcome_advances live job.id outcome
  persist_upholds h rfl ht (Nat.le_of_lt ht)

/-- Downloading a file and storing what it says, or failing on the way. -/
private theorem getFileContent_upholds (h : Holding c w job s) {auth : UpstreamAuth} {fileId : String}
    {f : String → Driver (Except DriverError JobState)}
    (hf : ∀ content b, Holding c w job b → Upholds c w job.id (f content) (Advanced c w job) b) :
    Upholds c w job.id (do
      match ← getFileContent auth fileId with
      | .error error => return .error (classifyProvider error)
      | .ok content => f content) (Advanced c w job) s := by
  refine perform_upholds h (fun _ => trivial) (fun _ _ he => by cases he) fun a reply b _ _ hb => ?_
  cases reply with
  | error error => exact error_upholds hb _
  | ok content => exact hf content b hb

theorem applyCompleted_upholds (h : Holding c w job s) (live : job.state.isTerminal = false)
    (auth : UpstreamAuth) (batch : BatchObject) :
    Upholds c w job.id (applyCompleted c auth job batch) (Advanced c w job) s := by
  unfold applyCompleted
  split
  · exact getFileContent_upholds h fun content b hb => storeOutcome_upholds hb live _
  · exact error_upholds h _
  · refine getFileContent_upholds h fun content b hb => ?_
    split
    · exact error_upholds hb _
    · split
      · exact error_upholds hb _
      · exact storeOutcome_upholds hb live _

theorem applyBatchStatus_upholds (h : Holding c w job s) (live : job.state.isTerminal = false)
    (auth : UpstreamAuth) (batch : BatchObject) :
    Upholds c w job.id (applyBatchStatus c auth job batch) (Advanced c w job) s := by
  unfold applyBatchStatus
  split
  · exact applyCompleted_upholds h live auth batch
  · split
    · split
      · exact getFileContent_upholds h fun content b hb => storeOutcome_upholds hb live _
      · exact storeOutcome_upholds h live _
    · exact ret_upholds h (fun next hnext => (Except.ok.inj hnext).symm)

/-- The submission of an uploaded job: only an acknowledged begin_submission leads to create_batch,
and it is spent by the call. -/
private theorem submit_upholds (h : Holding c w job s) (auth : UpstreamAuth) (inputFileId : FileId)
    (hstate : job.state = .uploaded inputFileId) (requestBody : Value) :
    Upholds c w job.id (advance c auth requestBody job) (Advanced c w job) s := by
  have hstage : job.state.stage = 1 := by rw [hstate]; rfl
  simp only [advance, hstate]
  refine perform_upholds h (fun _ => ⟨rfl, Nat.one_lt_two⟩) (fun _ _ he => by cases he) fun a reply b ha hp hb => ?_
  cases reply with
  | error error => exact error_upholds hb _
  | ok submitting =>
    obtain ⟨-, hstatus⟩ := hp.transition_ok ha.wellFormed
    have hunspent : createdBy w job.id b.log < begunBy w job.id b.log := by
      have := ha.balance
      rw [hp.2, createdBy_cons, begunBy_cons]
      simp [Event.worker, Event.creates, Event.begins]
      omega
    refine Prog.Safe.call
      (fun t => Holding c w job t ∧ createdBy w job.id t.log < begunBy w job.id t.log) ⟨hb, hunspent⟩
      (fun t t' ht hr => ⟨ht.1.rely hr, by rw [hr.createdBy, hr.begunBy]; exact ht.2⟩)
      fun t reply u ht hu => ⟨⟨_, reply, hu, rfl, ht.2⟩, ?_⟩
    have hheld := ht.1.performed hu ⟨rfl, ht.2⟩ (fun _ _ he => by cases he)
    cases reply with
    | ok batch =>
      refine persist_upholds hheld rfl ?_ (hstage ▸ (by decide : 1 ≤ 4))
      simp only [Transition.Advances, Transition.expected, Transition.target, hstatus]
      decide
    | error error =>
      change Upholds c w job.id (if error.retryable then persist (.markSubmissionUncertain job.id)
        else .ret (.error (.permanent error.message))) _ u
      split
      · exact persist_upholds hheld rfl (by decide : 2 < 3) (hstage ▸ (by decide : 1 ≤ 3))
      · exact error_upholds hheld _

/-- Every branch of `advance`, for a job that is not terminal. -/
theorem advance_upholds (h : Holding c w job s) (live : job.state.isTerminal = false)
    (auth : UpstreamAuth) (requestBody : Value) :
    Upholds c w job.id (advance c auth requestBody job) (Advanced c w job) s := by
  cases hstate : job.state with
  | queued =>
    simp only [advance, hstate]
    refine perform_upholds h (fun _ => trivial) (fun _ _ he => by cases he) fun a reply b _ _ hb => ?_
    cases reply with
    | error error => exact error_upholds hb _
    | ok fileId => exact persist_upholds hb rfl Nat.one_pos (hstate ▸ Nat.zero_le 1)
  | uploaded inputFileId => exact submit_upholds h auth inputFileId hstate requestBody
  | submitting inputFileId startedAt =>
    simp only [advance, hstate]
    exact persist_upholds h rfl (by decide : 2 < 3) (hstate ▸ (by decide : 2 ≤ 3))
  | submissionUncertain inputFileId startedAt =>
    simp only [advance, hstate]
    refine perform_upholds h (fun _ => trivial) (fun _ _ he => by cases he) fun a reply b _ _ hb => ?_
    match reply with
    | .ok (some batch) =>
      refine persist_upholds hb rfl (by decide : 3 < 4) ?_
      rw [hstate]
      exact (by decide : 3 ≤ 4)
    | .ok none => exact ret_upholds hb (fun next hnext => by rw [hstate]; exact (Except.ok.inj hnext).symm)
    | .error error => exact error_upholds hb _
  | submitted batchId =>
    simp only [advance, hstate]
    refine perform_upholds h (fun _ => trivial) (fun _ _ he => by cases he) fun a reply b _ _ hb => ?_
    cases reply with
    | error error => exact error_upholds hb _
    | ok batch => exact applyBatchStatus_upholds hb live auth batch
  | terminal outcome =>
    rw [hstate] at live
    cases live

/-- Announcing a state that was reached, and leaving the loop exactly when it is terminal. -/
private theorem publish_upholds (h : Holding c w job s) {state : JobState}
    (hreached : Reached c job.id state s) (hle : job.state.stage ≤ state.stage) {f : Unit → Driver α}
    (hnext : ∀ b, Holding c w { job with state } b → Upholds c w job.id (f ()) post b) :
    Upholds c w job.id (publish job.id state >>= f) post s := by
  refine Prog.Safe.call (fun t => Holding c w job t ∧ Reached c job.id state t) ⟨h, hreached⟩ ?_ ?_
  · intro a b hab hr
    obtain ⟨events, he, -⟩ := hr.log
    exact ⟨hab.1.rely hr, hab.2.mono hr.forward ⟨events, he⟩⟩
  · intro a reply b hab hp
    have hdb : b.db = a.db := hp.1
    have hlog := hp.2
    have hallowed : Op.Allowed c w job.id a.log (.publish job.id state) := by
      refine ⟨rfl, hab.2.committed, fun previous hprevious => ?_⟩
      rw [hab.1.shown] at hprevious
      exact Option.some.inj hprevious ▸ hle
    refine ⟨⟨_, reply, hp, hallowed⟩, hnext b ⟨hp.wellFormed hab.1.wellFormed, ?_, ?_, ?_⟩⟩
    · rw [hlog, published, List.filterMap_cons_some (b := state) (by simp [Event.shownBy, Event.worker, Event.shown])]
      rfl
    · exact hab.2.mono (hdb ▸ .refl a.db) ⟨[_], hlog⟩
    · rw [hlog]
      exact hallowed.balance reply b.db hab.1.balance

private theorem finished_of_holding (job : Job) (h : Holding c w job s) (ht : job.state.isTerminal = true) :
    Finished c w job.id s := by
  obtain ⟨row, hrow, hle, hdecodes⟩ := h.reached.row
  have hfive := (JobState.isTerminal_iff job.state).mp ht
  have := row.status.stage_le
  exact ⟨job.state, row, h.shown, hrow, by omega, hdecodes ht⟩

private theorem publishAndGo_upholds (h : Holding c w job s) {state : JobState}
    (hreached : Reached c job.id state s) (hle : job.state.stage ≤ state.stage) :
    Upholds c w job.id (publishAndGo job state) (Settled c w job.id) s := by
  refine publish_upholds h hreached hle fun b hb => ?_
  cases ht : state.isTerminal with
  | true => exact fun _ hr => Finished.rely (finished_of_holding { job with state } hb ht) hr
  | false => exact again_upholds hb ht

private theorem sleep_upholds (h : Holding c w job s) (live : job.state.isTerminal = false) :
    Upholds c w job.id (sleep >>= fun _ => .ret (.again job)) (Settled c w job.id) s :=
  perform_upholds h (fun _ => trivial) (fun _ _ he => by cases he) fun _ _ _ _ _ hb => again_upholds hb live

/-- Reloading the stored state, which is never behind the loop variable. -/
private theorem driverState_upholds (h : Holding c w job s) {f : Option JobState → Driver Turn}
    (hnone : ∀ b, Holding c w job b → Upholds c w job.id (f none) (Settled c w job.id) b)
    (hsome : ∀ b state, Holding c w job b → Reached c job.id state b → job.state.stage ≤ state.stage →
      Upholds c w job.id (f (some state)) (Settled c w job.id) b) :
    Upholds c w job.id (driverState job.id >>= f) (Settled c w job.id) s := by
  change Upholds c w job.id (Prog.perform (Op.get job.id) >>= _) _ s
  refine perform_upholds h (fun _ => trivial) (fun _ _ he => by cases he) fun a reply b ha hp hb => ?_
  cases reply with
  | error error => exact hnone b hb
  | ok found =>
    obtain ⟨hdb, hreply⟩ := hp.1
    have hget : b.db.get c job.id = .ok found := by
      rcases hreply with he | ⟨message, he⟩
      · rw [hdb, ← he]
      · cases he
    obtain ⟨hreached, row, hrow, htry⟩ := reached_of_get hget ⟨_, hp.2 ▸ List.mem_cons_self, rfl⟩
    refine hsome b found.state hb hreached ?_
    obtain ⟨row', hrow', hle, -⟩ := hb.reached.row
    rw [hrow] at hrow'
    cases hrow'
    exact Nat.le_trans hle (Nat.le_of_eq (congrArg Status.stage (JobRow.tryFrom_ok htry).2.2.symm))

/-- The permanent branch: store the failure, or fall back to what the store holds. -/
private theorem permanent_upholds (h : Holding c w job s) (live : job.state.isTerminal = false)
    (error : String) :
    Upholds c w job.id (settle job (.error (.permanent error))) (Settled c w job.id) s := by
  have ht := Transition.storeOutcome_advances live job.id (.failed (failedResponse job.model error))
  refine perform_upholds h (fun _ => ⟨rfl, ht⟩) (fun _ _ he => by cases he) fun a reply b ha hp hb => ?_
  cases reply with
  | ok state =>
    obtain ⟨hreached, hstatus⟩ := hp.transition_ok ha.wellFormed
    have hfive : state.stage = 5 := by rw [JobState.stage, hstatus]; rfl
    refine publish_upholds hb hreached ?_ fun u hu => ?_
    · rw [hfive]
      exact (statusOf job.state).stage_le
    · exact fun _ hr => Finished.rely (finished_of_holding { job with state } hu
        ((JobState.isTerminal_iff state).mpr hfive)) hr
  | error error =>
    change Upholds c w job.id (if error.isConflict then _ else _) _ b
    split
    · exact driverState_upholds hb (fun u hu => again_upholds hu live)
        (fun u state hu hreached hle => publishAndGo_upholds hu hreached hle)
    · exact sleep_upholds hb live

/-- Every exit of the loop body. -/
theorem settle_upholds {result : Except DriverError JobState} (h : Advanced c w job result s)
    (live : job.state.isTerminal = false) :
    Upholds c w job.id (settle job result) (Settled c w job.id) s := by
  obtain ⟨hheld, hnext⟩ := h
  match result with
  | .ok next =>
    change Upholds c w job.id (if next ≠ job.state then publishAndGo job next
      else if job.state.isTerminal then .ret .stop else sleep >>= fun _ => .ret (.again job)) _ s
    split
    next hne =>
      rcases hnext next rfl with he | ⟨hreached, hle⟩
      · exact (hne he).elim
      · exact publishAndGo_upholds hheld hreached hle
    · rw [live]
      exact sleep_upholds hheld live
  | .error .conflict =>
    exact driverState_upholds hheld (fun b hb => sleep_upholds hb live)
      (fun b state hb hreached hle => publishAndGo_upholds hb hreached hle)
  | .error (.retryable message) => exact sleep_upholds hheld live
  | .error (.permanent message) => exact permanent_upholds hheld live message

end Rules
end Kaiion.Durable
