import Kaiion.Durable.SoleWriter
import Kaiion.Json.Print

/-! When a permanent failure reaches the store. -/
namespace Kaiion.Durable
open Foundation

/-- The loop variable has the status of the row, so that storing the failure ends the job. -/
def Recorded (c : Codec) (job : Job) (error : String) (s : World) : Prop :=
  (∃ row, s.db.row? job.id = some row ∧ row.status = statusOf job.state) ∧
  let outcome := StoredOutcome.failed (failedResponse job.model error)
  (c.RoundTrips (failedResponse job.model error) → ∀ now,
    (s.db.storeOutcome c job.id job.state outcome).2 = .ok (.terminal outcome) ∧
    ((Transition.storeOutcome job.id job.state outcome).run c now s.db).1.get c job.id =
      .ok { job with state := .terminal outcome })

/-- The sole worker of a job, in the middle of a turn. -/
def Worker.Tracking (c : Codec) (w : Nat) (id : JobId) (worker : Worker) (s : World) : Prop :=
  worker.job.id = id ∧
  match worker.phase with
  | .advancing rest => Tracks c w id rest (Tracked c w worker.job) s
  | .settling rest => Tracks c w id rest (Turned c id) s

structure Fleet.Tracking (c : Codec) (w : Nat) (id : JobId) (fleet : Fleet) : Prop where
  sole : fleet.SoleWriter w id
  started : w < fleet.nextWorker
  present : ∃ row, fleet.world.db.row? id = some row
  worker : ∀ worker, fleet.workers w = some worker → worker.Tracking c w id fleet.world

theorem Worker.Tracking.quiet {c : Codec} {w : Nat} {id : JobId} {worker : Worker} {s s' : World}
    (h : worker.Tracking c w id s) (hq : Quiet id s s') : worker.Tracking c w id s' := by
  have htrans : ∀ a b d, Quiet id a b → Quiet id b d → Quiet id a d := fun _ _ _ => Quiet.trans
  obtain ⟨hid, h⟩ := h
  refine ⟨hid, ?_⟩
  generalize worker.phase = phase at h
  cases phase with
  | advancing rest => exact Prog.Safe.of_rely htrans h hq
  | settling rest => exact Prog.Safe.of_rely htrans h hq

theorem Worker.Tracking.perform {c : Codec} {w : Nat} {id : JobId} {worker : Worker} {op : Op}
    {reply : Op.Reply op} {phase : Phase} {s s' : World} (h : worker.Tracking c w id s)
    (ht : worker.phase.Takes op reply phase) (hp : World.Acknowledges c w op s reply s') :
    Worker.Tracking c w id { worker with phase } s' := by
  obtain ⟨hid, h⟩ := h
  refine ⟨hid, ?_⟩
  generalize worker.phase = old at h ht
  cases ht with
  | advancing => exact (Prog.Safe.step (Quiet.refl id) h hp).2
  | settling => exact (Prog.Safe.step (Quiet.refl id) h hp).2

/-- The top of the loop. -/
theorem Worker.Tracking.turn {c : Codec} {w : Nat} {job : Job} {s : World} (h : Synced c job s)
    (auth : UpstreamAuth) (requestBody : Value) :
    (Worker.turn c auth requestBody job).Tracking c w job.id s := by
  obtain ⟨stored, hl, h⟩ := h
  exact ⟨rfl, advance_tracks hl h auth requestBody⟩

/-- An allowed operation of another job's worker is quiet. -/
private theorem quiet_of_performs {c : Codec} {w : Nat} {id other : JobId} {op : Op}
    {reply : Op.Reply op} {s s' : World} (h : World.Performs c w op s reply s') (hw : s.db.WellFormed)
    (ha : op.Allowed c w other s.log) (hne : id ≠ other) : Quiet id s s' := by
  refine ⟨?_, h.wellFormed, [_], h.2⟩
  rcases h.db_cases with he | ⟨t, now, rfl, he⟩
  · rw [he]
  · rw [he]
    exact Transition.run_row?_ne c now hw.uniqueIds t (ha.1 ▸ hne)

private theorem setWorker_self {fleet : Fleet} {w : Nat} {worker found : Worker}
    (h : fleet.setWorker w (some worker) w = some found) : found = worker := by
  simp only [Fleet.setWorker, if_true, Option.some.injEq] at h
  exact h.symm

private theorem setWorker_ne {fleet : Fleet} {w other : Nat} {worker : Option Worker} {found : Worker}
    (hne : w ≠ other) (h : fleet.setWorker other worker w = some found) :
    fleet.workers w = some found := (if_neg hne).symm.trans h

section Steps
variable {c : Codec} {w : Nat} {id : JobId} {fleet fleet' : Fleet}

/-- A step after which worker `w` is where it was. -/
private theorem tracking_of_quiet (h : fleet.Tracking c w id) (hs : fleet'.SoleWriter w id)
    (hlt : fleet.nextWorker ≤ fleet'.nextWorker) (hq : Quiet id fleet.world fleet'.world)
    (hw : ∀ worker, fleet'.workers w = some worker → fleet.workers w = some worker) :
    fleet'.Tracking c w id := by
  obtain ⟨row, hrow⟩ := h.present
  exact ⟨hs, Nat.lt_of_lt_of_le h.started hlt, ⟨row, hq.row.trans hrow⟩,
    fun worker found => (h.worker worker (hw worker found)).quiet hq⟩

/-- A step of worker `w` itself that performs no operation. -/
private theorem tracking_of_turn (h : fleet.Tracking c w id) {worker : Worker}
    (hs : Fleet.SoleWriter w id { fleet with workers := fleet.setWorker w (some worker) })
    (hw : worker.Tracking c w id fleet.world) :
    Fleet.Tracking c w id { fleet with workers := fleet.setWorker w (some worker) } :=
  ⟨hs, h.started, h.present, fun _ hfound => setWorker_self hfound ▸ hw⟩

theorem Fleet.SoleStep.tracking (h : Fleet.SoleStep c w id fleet fleet') (hs : fleet.Sound c)
    (ht : fleet.Tracking c w id) : fleet'.Tracking c w id := by
  obtain ⟨hstep, hsole, hack⟩ := h
  have hforward := hstep.forward hs
  have hsound := hstep.sound hs
  cases hstep with
  | enqueue uuid authHash provider request fault fresh db committed =>
    refine tracking_of_quiet ht hsole (Nat.le_refl _) ⟨?_, fun _ => hsound.wellFormed, [_], rfl⟩ fun _ h => h
    obtain ⟨row, hrow⟩ := ht.present
    rw [← committed, hrow]
    rcases fault.apply_fst ProxyError.database fleet.world.db
      (fleet.world.db.enqueue c uuid authHash provider request) with hf | hf
    · rw [hf, hrow]
    · rw [hf]
      exact Database.enqueue_row? c hrow uuid authHash provider request
  | read => exact tracking_of_quiet ht hsole (Nat.le_refl _) (.refl _ _) fun _ h => h
  | subscribe =>
    exact tracking_of_quiet ht hsole (Nat.le_succ _) ⟨rfl, fun h => h, [_], rfl⟩
      fun worker found => setWorker_ne (Nat.ne_of_lt ht.started) found
  | perform other worker op reply phase db found takes answers =>
    have performs : World.Performs c other op fleet.world reply
        ⟨db, .performed other op reply db :: fleet.world.log⟩ := ⟨answers, rfl⟩
    by_cases he : other = w
    · subst he
      have hworker := (ht.worker worker found).perform takes ⟨performs, hack op reply db rfl⟩
      obtain ⟨row, hrow⟩ := ht.present
      obtain ⟨row', hrow', -⟩ := hforward id row hrow
      exact ⟨hsole, ht.started, ⟨row', hrow'⟩, fun _ hfound => setWorker_self hfound ▸ hworker⟩
    · have ha := ((hs.workers other worker found).2.perform takes performs).1.allowed performs
      exact tracking_of_quiet ht hsole (Nat.le_refl _)
        (quiet_of_performs performs hs.wellFormed ha fun hid => he (ht.sole other worker found hid.symm))
        fun worker' found' => setWorker_ne (fun h => he h.symm) found'
  | advanced other worker result found done =>
    by_cases he : other = w
    · subst he
      obtain ⟨hid, h⟩ := ht.worker worker found
      rw [done] at h
      subst hid
      exact tracking_of_turn ht hsole ⟨rfl, settle_tracks (Prog.Safe.result (Quiet.refl _) h)⟩
    · exact tracking_of_quiet ht hsole (Nat.le_refl _) (.refl _ _)
        fun worker' found' => setWorker_ne (fun h => he h.symm) found'
  | looped other worker job found done =>
    by_cases he : other = w
    · subst he
      obtain ⟨-, h⟩ := ht.worker worker found
      rw [done] at h
      obtain ⟨hid, hsynced⟩ : Turned c id (.again job) fleet.world := Prog.Safe.result (Quiet.refl _) h
      exact tracking_of_turn ht hsole (hid ▸ Worker.Tracking.turn hsynced _ _)
    · exact tracking_of_quiet ht hsole (Nat.le_refl _) (.refl _ _)
        fun worker' found' => setWorker_ne (fun h => he h.symm) found'
  | stopped other worker found done =>
    refine tracking_of_quiet ht hsole (Nat.le_refl _) (.refl _ _) fun worker' found' => ?_
    simp only [Fleet.setWorker] at found'
    split at found'
    · cases found'
    · exact found'
  | crash => exact tracking_of_quiet ht hsole (Nat.le_refl _) (.refl _ _) fun _ found => by cases found

theorem Fleet.SoleRun.tracking (h : Fleet.SoleRun c w id fleet fleet') (hs : fleet.Sound c)
    (ht : fleet.Tracking c w id) : fleet'.Sound c ∧ fleet'.Tracking c w id := by
  induction h with
  | refl => exact ⟨hs, ht⟩
  | tail _ hstep ih => exact ⟨hstep.1.sound ih.1, hstep.tracking ih.1 ih.2⟩

end Steps

theorem Fleet.Starts.tracking {c : Codec} {w : Nat} {job : Job} {start : Fleet}
    (h : start.Starts c w job) (hs : start.Sound c) : start.Tracking c w job.id := by
  obtain ⟨auth, requestBody, hworker⟩ := h.worker
  have hstored : Stored c job start.world := ⟨hs.wellFormed, h.current⟩
  obtain ⟨row, hrow, -⟩ := hstored.row
  refine ⟨h.sole, (hs.workers w _ hworker).1, ⟨row, hrow⟩, fun worker found => ?_⟩
  rw [hworker] at found
  cases found
  exact Worker.Tracking.turn ⟨job, Or.inl rfl, hstored⟩ auth requestBody

/-- A failure is stored over the state it was found in. -/
theorem Stored.recorded {c : Codec} {job : Job} {s : World} (h : Stored c job s) (error : String) :
    Recorded c job error s := by
  obtain ⟨row, hrow, htry⟩ := h.row
  obtain ⟨hid, hmodel, hstatus⟩ := JobRow.tryFrom_ok htry
  refine ⟨⟨row, hrow, hstatus.symm⟩, ?_⟩
  intro outcome hround now
  let t := Transition.storeOutcome job.id job.state outcome
  have haffects : t.affects row = true := decide_eq_true hstatus.symm
  have hcheck : (t.set c now row).check c = true := by
    simp [t, outcome, Transition.set, encodeOutcome, JobRow.check, hround.2]
  have hparse := hround.1
  rw [hmodel] at hparse
  have htry' : (t.set c now row).tryFrom c = .ok { job with state := .terminal outcome } := by
    simp [t, outcome, Transition.set, encodeOutcome, JobRow.tryFrom, JobRow.outcome, JobRow.reject,
      JobRow.require, hparse, hid, hmodel, bind, Except.bind, pure, Except.pure]
  rcases t.run_cases c now h.1.uniqueIds with ⟨_, -, hno⟩ | ⟨row', hrow', -, -, hrun⟩
  · rw [hno row hrow haffects] at hcheck
    cases hcheck
  · rw [show s.db.row? t.id = some row from hrow] at hrow'
    cases hrow'
    constructor
    · have hreply := congrArg Prod.snd hrun
      rw [htry'] at hreply
      exact hreply
    · rw [hrun, Database.get]
      have hset := Database.replace_row? hrow ((t.set_id c now row).trans (Database.row?_id hrow))
      rw [show (s.db.replace t.id (t.set c now row)).row? job.id = _ from hset]
      exact htry'

/-- Nobody else is running. -/
private def Alone (w : Nat) (fleet : Fleet) : Prop := ∀ other, other ≠ w → fleet.workers other = none

private theorem alone_setWorker {w : Nat} {fleet : Fleet} (h : Alone w fleet) (worker : Option Worker)
    (world : World) : Alone w { fleet with world, workers := fleet.setWorker w worker } :=
  fun other hne => (if_neg hne).trans (h other hne)

private theorem Alone.soleWriter {w : Nat} {id : JobId} {fleet : Fleet} (h : Alone w fleet) :
    fleet.SoleWriter w id := by
  intro other worker found _
  by_contra hne
  rw [h other hne] at found
  cases found

private theorem soleStep_perform (c : Codec) (id : JobId) {w : Nat} {fleet : Fleet} (h : Alone w fleet)
    {worker : Worker} (op : Op) (reply : Op.Reply op) {phase : Phase} (db : Database)
    (found : fleet.workers w = some worker) (takes : worker.phase.Takes op reply phase)
    (answers : op.Answers c fleet.world.db reply db) (hack : op.Acknowledged fleet.world.db reply db) :
    let fleet' := { fleet with
      world := ⟨db, .performed w op reply db :: fleet.world.log⟩
      workers := fleet.setWorker w (some { worker with phase }) }
    Fleet.SoleStep c w id fleet fleet' ∧ Alone w fleet' := by
  intro fleet'
  have halone : Alone w fleet' := alone_setWorker h _ _
  refine ⟨⟨.perform fleet w worker op reply phase db found takes answers, halone.soleWriter,
    fun op' reply' after he => ?_⟩, halone⟩
  simp only [fleet', List.cons.injEq, Event.performed.injEq, and_true, true_and] at he
  obtain ⟨rfl, hreply, rfl⟩ := he
  cases hreply
  exact hack

private theorem soleStep_silent {c : Codec} (id : JobId) {w : Nat} {fleet : Fleet} (h : Alone w fleet)
    {worker : Option Worker} (hstep : Fleet.Step c fleet { fleet with workers := fleet.setWorker w worker }) :
    let fleet' := { fleet with workers := fleet.setWorker w worker }
    Fleet.SoleStep c w id fleet fleet' ∧ Alone w fleet' := by
  intro fleet'
  have halone : Alone w fleet' := alone_setWorker h _ _
  exact ⟨⟨hstep, halone.soleWriter, fun _ _ _ he => absurd he.symm (List.cons_ne_self _ _)⟩, halone⟩

/-- A refused create_batch call is the only way to a permanent failure the store does not take. In
any run of a sole writer whose failed statements change nothing, a permanent error of `advance` is
recorded exactly when the loop variable is not uploaded, and always if create_batch was never refused. -/
theorem permanent_failure_recorded {c : Codec} {boot start fleet : Fleet} {w : Nat} {job : Job}
    (hi : boot.Initial) (hboot : Fleet.Run c boot start) (hstart : start.Starts c w job)
    (hrun : Fleet.SoleRun c w job.id start fleet) {worker : Worker} {error : String}
    (found : fleet.workers w = some worker)
    (failed : worker.phase = .advancing (.ret (.error (.permanent error)))) :
    (Recorded c worker.job error fleet.world ↔ ∀ inputFileId, worker.job.state ≠ .uploaded inputFileId) ∧
    ((∀ event ∈ fleet.world.log, event.refuses w job.id = false) →
      Recorded c worker.job error fleet.world) := by
  have hs := (Fleet.Run.sound hboot hi.sound).1
  obtain ⟨-, ht⟩ := Fleet.SoleRun.tracking hrun hs (hstart.tracking hs)
  obtain ⟨hid, h⟩ := ht.worker worker found
  rw [failed, ← hid] at h
  rcases (Prog.Safe.result (Quiet.refl _) h : Tracked c w worker.job (.error (.permanent error)) fleet.world)
    with ⟨hstored, hne⟩ | ⟨inputFileId, other, startedAt, hstate, hstored, event, hevent, hrefuses⟩
  · exact ⟨⟨fun _ => hne, fun _ => hstored.recorded error⟩, fun _ => hstored.recorded error⟩
  · refine ⟨⟨fun hrecorded => ?_, fun hne => (hne inputFileId hstate).elim⟩, fun hnone => ?_⟩
    · obtain ⟨⟨row, hrow, hstatus⟩, -⟩ := hrecorded
      obtain ⟨row', hrow', htry⟩ := hstored.row
      rw [show fleet.world.db.row? worker.job.id = some row' from hrow'] at hrow
      cases hrow
      rw [hstate, ← (JobRow.tryFrom_ok htry).2.2] at hstatus
      cases hstatus
    · rw [hid, hnone event hevent] at hrefuses
      cases hrefuses

/-- A refused upload, on the other hand, is recorded. -/
theorem refused_upload_is_recorded :
    let c : Codec := Json.compact
    let row : JobRow := .queued "job" "auth" "request" "model"
    let job : Job := ⟨⟨"job"⟩, "model", .queued⟩
    let error := classifyStatus ⟨400, "400 Bad Request"⟩ "invalid"
    ∃ fleet : Fleet, fleet.world.log.head? = some (.performed 0
        (.uploadBatchFile ⟨"key", none, none⟩ ⟨"job"⟩ (batchLine c job .null)) (.error error) ⟨[row], []⟩) ∧
      Recorded c job error.message fleet.world := by
  intro c row job error
  let boot : Fleet := ⟨⟨⟨[row], []⟩, [.stored ⟨[row], []⟩]⟩, [], fun _ => none, 0⟩
  let start : Fleet := ⟨⟨⟨[row], []⟩, [.subscribed 0 job, .stored ⟨[row], []⟩]⟩, [job],
    boot.setWorker 0 (some (.turn c ⟨"key", none, none⟩ .null job)), 1⟩
  have hinit : boot.Initial := by
    refine ⟨⟨?_, ?_, ?_, ?_, ?_⟩, rfl, rfl, rfl⟩ <;> simp [boot, Database.UniqueIds]
  have hboot : Fleet.Run c boot start := (Relation.ReflTransGen.single (.read boot ⟨"job"⟩ job rfl)).tail
    (.subscribe _ ⟨"key", none, none⟩ .null job List.mem_cons_self rfl)
  have halone : Alone 0 start := fun other hne => if_neg hne
  obtain ⟨h₁, -⟩ := soleStep_perform c job.id halone
    (.uploadBatchFile ⟨"key", none, none⟩ ⟨"job"⟩ (batchLine c job .null)) (Except.error error)
    ⟨[row], []⟩ rfl (.advancing _) rfl trivial
  refine ⟨_, rfl, (permanent_failure_recorded hinit hboot
    ⟨⟨⟨"key", none, none⟩, .null, rfl⟩, rfl, halone.soleWriter⟩ (.single h₁) rfl rfl).2 ?_⟩
  intro event hevent
  simp only [start, List.mem_cons, List.not_mem_nil, or_false] at hevent
  rcases hevent with rfl | rfl | rfl <;> rfl

/-- One fresh request, one worker: the upload succeeds, create_batch answers 400. The row is
submitting, the loop variable still uploaded, and storing the failure conflicts. -/
theorem refused_create_is_not_recorded :
    let c : Codec := Json.compact
    let boot : Fleet := ⟨⟨⟨[], []⟩, [.stored ⟨[], []⟩]⟩, [], fun _ => none, 0⟩
    let job : Job := ⟨⟨"job"⟩, "model", .queued⟩
    let error := (classifyStatus ⟨400, "400 Bad Request"⟩ "invalid").message
    ∃ start fleet worker, boot.Initial ∧ Fleet.Run c boot start ∧ start.Starts c 0 job ∧
      Fleet.SoleRun c 0 job.id start fleet ∧ fleet.workers 0 = some worker ∧
      worker.phase = .advancing (.ret (.error (.permanent error))) ∧
      ¬ Recorded c worker.job error fleet.world ∧
      fleet.world.db.storeOutcome c job.id worker.job.state (.failed (failedResponse job.model error)) =
        (fleet.world.db, .error (.transitionConflict "job" "uploaded")) := by
  intro c boot job error
  let auth : UpstreamAuth := ⟨"key", none, none⟩
  let row : JobRow := .queued "job" "auth" "request" "model"
  let request : RequestRow := ⟨"job", "provider", "auth", none, "null"⟩
  let uploaded : JobRow := { row with status := .uploaded, inputFileId := some "file" }
  let submitting : JobRow := { uploaded with status := .submitting, submissionStartedAt := some "now" }
  let start : Fleet := ⟨⟨⟨[row], [request]⟩,
    [.subscribed 0 job, .stored ⟨[row], [request]⟩, .stored ⟨[], []⟩]⟩, [job],
    boot.setWorker 0 (some (.turn c auth .null job)), 1⟩
  have hinit : boot.Initial :=
    ⟨⟨List.nodup_nil, List.nodup_nil, List.nodup_nil, by simp [boot], by simp [boot]⟩, rfl, rfl, rfl⟩
  have hboot : Fleet.Run c boot start :=
    ((Relation.ReflTransGen.single (.enqueue boot "job" "auth" "provider"
      ⟨.null, "request", "model", true, none⟩ .none (by decide) ⟨[row], [request]⟩ rfl)).tail
      (.read _ ⟨"job"⟩ job rfl)).tail (.subscribe _ auth .null job List.mem_cons_self rfl)
  have halone : Alone 0 start := fun other hne => if_neg hne
  obtain ⟨h₁, a₁⟩ := soleStep_perform c job.id halone
    (.uploadBatchFile auth ⟨"job"⟩ (batchLine c job .null)) (Except.ok ⟨"file"⟩) ⟨[row], [request]⟩ rfl
    (.advancing _) rfl trivial
  obtain ⟨h₂, a₂⟩ := soleStep_perform c job.id a₁ (.transition (.markUploaded ⟨"job"⟩ ⟨"file"⟩))
    (Except.ok (.uploaded ⟨"file"⟩)) ⟨[uploaded], [request]⟩ rfl (.advancing _) ⟨⟨"now"⟩, .none, rfl⟩ trivial
  obtain ⟨h₃, a₃⟩ := soleStep_silent job.id a₂ (.advanced (c := c) _ 0 _ (.ok (.uploaded ⟨"file"⟩)) rfl rfl)
  obtain ⟨h₄, a₄⟩ := soleStep_perform c job.id a₃ (.publish ⟨"job"⟩ (.uploaded ⟨"file"⟩)) ()
    ⟨[uploaded], [request]⟩ rfl (.settling _) rfl trivial
  obtain ⟨h₅, a₅⟩ := soleStep_silent job.id a₄
    (.looped (c := c) _ 0 _ { job with state := .uploaded ⟨"file"⟩ } rfl rfl)
  obtain ⟨h₆, a₆⟩ := soleStep_perform c job.id a₅ (.transition (.beginSubmission ⟨"job"⟩ ⟨"file"⟩))
    (Except.ok (.submitting ⟨"file"⟩ ⟨"now"⟩)) ⟨[submitting], [request]⟩ rfl (.advancing _)
    ⟨⟨"now"⟩, .none, rfl⟩ trivial
  obtain ⟨h₇, -⟩ := soleStep_perform c job.id a₆ (.createBatch auth ⟨"file"⟩ ⟨"job"⟩)
    (Except.error (classifyStatus ⟨400, "400 Bad Request"⟩ "invalid")) ⟨[submitting], [request]⟩ rfl
    (.advancing _) rfl trivial
  have hrun := ((((((Relation.ReflTransGen.single h₁).tail h₂).tail h₃).tail h₄).tail h₅).tail h₆).tail h₇
  refine ⟨start, _, _, hinit, hboot, ⟨⟨auth, .null, rfl⟩, rfl, halone.soleWriter⟩, hrun, rfl, rfl, ?_, rfl⟩
  rintro ⟨⟨found, hfound, hstatus⟩, -⟩
  cases Option.some.inj (show some submitting = some found from hfound)
  cases hstatus

end Kaiion.Durable
