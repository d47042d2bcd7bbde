import Kaiion.Proxy.JobRuns
import Kaiion.Request.Compatibility

/-! A request that waits for its Batch answer, among everything else: what it is told is what the store
keeps, and equal requests are told the same. -/
namespace Kaiion.Proxy
open Durable Foundation

/-- What the store and the workers reply. A live call is answered in any way. -/
def HandlerOp.Answers (c : Codec) : (op : HandlerOp) → Registry → op.Reply → Registry → Prop
  | .live _, a, _, b => b = a
  | .checkIdempotency authHash request, a, reply, b =>
      b = a ∧ Queried (a.fleet.world.db.checkIdempotency authHash request) reply
  | .find authHash requestHash, a, reply, b =>
      b = a ∧ (reply = a.fleet.world.db.find c authHash requestHash ∨ ∃ error, reply = .error error)
  | .enqueue authHash provider request, a, reply, b =>
      Prog.Executes (Registry.Run c) (JobOp.Answers c) (JobApi.enqueue authHash provider request).run a reply b
  | .subscribe job auth requestBody, a, states, b => job ∈ a.fleet.copies ∧ ∃ receiver,
      (a.subscribe c auth requestBody job).receivers.head? = some receiver ∧
        Registry.Watches c receiver (a.subscribe c auth requestBody job) states b

variable {c : Codec} {s t : Registry}

/-- Subscribing hands out a receiver of the job. -/
theorem subscribe_receiver {auth : UpstreamAuth} {requestBody : Value} {job : Job} {receiver : Receiver}
    (h : (s.subscribe c auth requestBody job).receivers.head? = some receiver) : receiver.id = job.id := by
  unfold Registry.subscribe at h
  split at h
  · cases h
    rfl
  · split at h <;> cases h <;> rfl

private theorem awaitOutcome_last {before : List JobState} (hbefore : ∀ state ∈ before, state.isTerminal = false)
    (outcome : StoredOutcome) : awaitOutcome (before ++ [.terminal outcome]) = .ok outcome := by
  induction before with
  | nil => rfl
  | cons state before ih =>
    have hlater := ih fun other hother => hbefore other (List.mem_cons_of_mem _ hother)
    have hstate := hbefore state List.mem_cons_self
    cases state with
    | terminal outcome => cases hstate
    | _ => exact hlater

/-- The job of a request has this outcome, for good. -/
structure Settled (c : Codec) (authHash requestHash : String) (job : Job) (outcome : StoredOutcome)
    (db : Database) : Prop where
  belongs : db.Belongs job.id authHash requestHash
  stored : Registry.Stored c job.id (.terminal outcome) db

theorem Settled.later {authHash requestHash : String} {job : Job} {outcome : StoredOutcome}
    (h : Settled c authHash requestHash job outcome s.fleet.world.db) (hs : s.Sound c) (hlife : Registry.Life c s t) :
    Settled c authHash requestHash job outcome t.fleet.world.db :=
  ⟨h.belongs.forward (Registry.Life.sound hlife hs).2, h.stored.forward (Registry.Life.sound hlife hs).2⟩

/-- A request has one job, and its job one outcome. -/
theorem Settled.unique {db : Database} (hw : db.WellFormed) {authHash requestHash : String} {job job' : Job}
    {outcome outcome' : StoredOutcome} (h : Settled c authHash requestHash job outcome db)
    (h' : Settled c authHash requestHash job' outcome' db) : job.id = job'.id ∧ outcome = outcome' := by
  have hid := h.belongs.unique hw h'.belongs
  refine ⟨hid, ?_⟩
  have hstored := h.stored.2
  rw [hid, h'.stored.2] at hstored
  cases hstored
  rfl

/-- Who subscribes to a job and waits is told its stored outcome. -/
theorem waits_for_stored {auth : UpstreamAuth} {requestBody : Value} {job : Job} {states : List JobState}
    (h : s.Intact c) (hwaits : (HandlerOp.subscribe job auth requestBody).Answers c s states t) :
    Registry.Run c s t ∧ ∃ outcome, awaitOutcome states = .ok outcome ∧
      Registry.Stored c job.id (.terminal outcome) t.fleet.world.db := by
  obtain ⟨held, receiver, hhead, hwatches⟩ := hwaits
  have hstep : Registry.Step c s (s.subscribe c auth requestBody job) := .subscribes s auth requestBody job held
  have hsubscribed := (Registry.Run.life (.single hstep)).intact h
  obtain ⟨hrun, before, state, rfl, hbefore, hstored⟩ :=
    hwatches.outcome hsubscribed.sound hsubscribed.faithful (List.mem_of_head? hhead)
  refine ⟨.head hstep hrun, ?_⟩
  rw [subscribe_receiver hhead] at hstored
  cases state with
  | terminal outcome => exact ⟨outcome, awaitOutcome_last hbefore outcome, hstored⟩
  | _ => cases hstored.1

private theorem enqueue_leads {authHash provider : String} {request : NormalizedRequest} {result : Except ProxyError Job}
    (h : Prog.Executes (Registry.Run c) (JobOp.Answers c) (JobApi.enqueue authHash provider request).run s result t) :
    Registry.Run c s t :=
  h.leads (R := Registry.Run c) (fun _ _ _ h h' => h.trans h') (fun _ _ => id) fun _ _ _ _ hanswers => hanswers.run

section Batch
variable {app : AppState} {headers : HeaderMap} {body : Value} {answer : Answer}

/-- The answer gives the outcome of the job of this request. -/
structure Delivered (app : AppState) (headers : HeaderMap) (body : Value) (auth : UpstreamAuth)
    (request : NormalizedRequest) (job : Job) (outcome : StoredOutcome) (answer : Answer) : Prop where
  credentials : UpstreamAuth.fromHeaders headers = .ok auth
  normalized : fromHeaders app.router.crates body app.upstreamBaseUrl headers = .ok request
  answered : setBatchHeaders job.id (outcomeAnswer job outcome) = .ok answer

private theorem batchResponse_delivers (h : s.Intact app.router.crates.json) (hwhole : wantsStream body = false)
    (hrun : Prog.Executes (Registry.Run app.router.crates.json) (HandlerOp.Answers app.router.crates.json)
      (batchResponse app headers body).run s (.ok answer) t) :
    Registry.Run app.router.crates.json s t ∧ ∃ auth request job outcome,
      Delivered app headers body auth request job outcome answer ∧ Settled app.router.crates.json
        (auth.fingerprint app.router.crates) request.requestHash job outcome t.fleet.world.db := by
  have hrefl : ∀ a : Registry, Registry.Run app.router.crates.json a a := fun _ => .refl
  rcases Prog.Executes.of_andThen hrefl hrun with ⟨_, he⟩ | ⟨auth, s₁, hauth, h₁⟩
  · cases he
  obtain ⟨hcredentials, hrun₁⟩ := Prog.Executes.of_ret hauth
  rcases Prog.Executes.of_andThen hrefl h₁ with ⟨_, he⟩ | ⟨request, s₂, hrequest, h₂⟩
  · cases he
  obtain ⟨hnormalized, hrun₂⟩ := Prog.Executes.of_ret hrequest
  rcases Prog.Executes.of_andThen hrefl h₂ with ⟨_, he⟩ | ⟨job, s₃, henqueue, h₃⟩
  · cases he
  obtain ⟨a, b, hrun₃, hjob, hrun₄⟩ := Prog.Executes.of_perform henqueue
  rcases Prog.Executes.of_andThen hrefl h₃ with ⟨_, he⟩ | ⟨states, s₄, hsubscribe, h₄⟩
  · cases he
  obtain ⟨_, _, hperform, hlift⟩ := Prog.Executes.of_bind hrefl hsubscribe
  obtain ⟨heq, hrun₇⟩ := Prog.Executes.of_ret hlift
  cases heq
  obtain ⟨d, e, hrun₅, hwaits, hrun₆⟩ := Prog.Executes.of_perform hperform
  rw [if_neg (by simp [hwhole])] at h₄
  rcases Prog.Executes.of_andThen hrefl h₄ with ⟨_, he⟩ | ⟨outcome, s₅, houtcome, h₅⟩
  · cases he
  obtain ⟨hawaited, hrun₈⟩ := Prog.Executes.of_ret houtcome
  obtain ⟨hanswered, hrun₉⟩ := Prog.Executes.of_ret h₅
  -- The job is that of the request from its enqueue on.
  have hbefore : Registry.Run app.router.crates.json s a := (hrun₁.trans hrun₂).trans hrun₃
  have ha : a.Intact app.router.crates.json := hbefore.life.intact h
  have henqueued : Registry.Run app.router.crates.json a b := enqueue_leads hjob
  obtain ⟨hb, hregistered⟩ := (JobApi.enqueue_gives ha _ _ _).executes hjob
  obtain ⟨hbelongs, -⟩ := hregistered job rfl
  have hsubscribing : Registry.Run app.router.crates.json b d := hrun₄.trans hrun₅
  obtain ⟨hwaiting, stored, hstored, hfinal⟩ := waits_for_stored (hsubscribing.life.intact hb) hwaits
  have hwaited : Registry.Run app.router.crates.json b e := hsubscribing.trans hwaiting
  rw [hstored] at hawaited
  cases hawaited
  have hsettled : Settled app.router.crates.json (auth.fingerprint app.router.crates) request.requestHash job outcome
      e.fleet.world.db :=
    ⟨hbelongs.forward (Registry.Life.sound hwaited.life hb.sound).2, hfinal⟩
  have hlast : Registry.Run app.router.crates.json e t := ((hrun₆.trans hrun₇).trans hrun₈).trans hrun₉
  have he : e.Intact app.router.crates.json := hwaited.life.intact hb
  exact ⟨(hbefore.trans henqueued).trans (hwaited.trans hlast), auth, request, job, outcome,
    ⟨hcredentials.symm, hnormalized.symm, hanswered.symm⟩, hsettled.later he.sound hlast.life⟩

variable {start : Registry}

private theorem delivered_later (hstart : start.Initial) (hlife : Registry.Life app.router.crates.json start s)
    (hwhole : wantsStream body = false)
    (hrun : Prog.Executes (Registry.Run app.router.crates.json) (HandlerOp.Answers app.router.crates.json)
      (batchResponse app headers body).run s (.ok answer) t) :
    ∃ auth request job outcome, Delivered app headers body auth request job outcome answer ∧
      ∀ later, Registry.Life app.router.crates.json t later → later.Sound app.router.crates.json ∧
        Settled app.router.crates.json (auth.fingerprint app.router.crates) request.requestHash job outcome
          later.fleet.world.db := by
  have hs := hlife.intact hstart.intact
  obtain ⟨hmoves, auth, request, job, outcome, hdelivered, hsettled⟩ := batchResponse_delivers hs hwhole hrun
  have ht := hmoves.life.intact hs
  exact ⟨auth, request, job, outcome, hdelivered, fun later hlater =>
    ⟨(hlater.intact ht).sound, hsettled.later ht.sound hlater⟩⟩

/-- A request that waits for its Batch answer is told the outcome that the store keeps for its job, and
keeps ever after, whatever the handlers and workers do meanwhile and whichever process wrote it. -/
theorem batch_answers_are_stored (hstart : start.Initial) (hlife : Registry.Life app.router.crates.json start s)
    (hwhole : wantsStream body = false)
    (hrun : Prog.Executes (Registry.Run app.router.crates.json) (HandlerOp.Answers app.router.crates.json)
      (batchResponse app headers body).run s (.ok answer) t) :
    ∃ auth request job outcome, Delivered app headers body auth request job outcome answer ∧
      ∀ later, Registry.Life app.router.crates.json t later → Settled app.router.crates.json
        (auth.fingerprint app.router.crates) request.requestHash job outcome later.fleet.world.db := by
  obtain ⟨auth, request, job, outcome, hdelivered, hsettled⟩ := delivered_later hstart hlife hwhole hrun
  exact ⟨auth, request, job, outcome, hdelivered, fun later hlater => (hsettled later hlater).2⟩

/-- Equal requests of one credential are told the same, one after another, at the same time or of one process
and the next: the same job and the same body. -/
theorem equal_requests_get_equal_answers {app' : AppState} {headers' : HeaderMap} {body' : Value} {answer' : Answer}
    {s' t' later : Registry} {auth auth' : UpstreamAuth} {request request' : NormalizedRequest}
    (hstart : start.Initial) (hwhole : wantsStream body = false) (hwhole' : wantsStream body' = false)
    (hcrates : app'.router.crates = app.router.crates)
    (hlife : Registry.Life app.router.crates.json start s) (hlife' : Registry.Life app.router.crates.json start s')
    (one : Prog.Executes (Registry.Run app.router.crates.json) (HandlerOp.Answers app.router.crates.json)
      (batchResponse app headers body).run s (.ok answer) t)
    (other : Prog.Executes (Registry.Run app'.router.crates.json) (HandlerOp.Answers app'.router.crates.json)
      (batchResponse app' headers' body').run s' (.ok answer') t')
    (hlater : Registry.Life app.router.crates.json t later) (hlater' : Registry.Life app.router.crates.json t' later)
    (hauth : UpstreamAuth.fromHeaders headers = .ok auth) (hauth' : UpstreamAuth.fromHeaders headers' = .ok auth')
    (hrequest : fromHeaders app.router.crates body app.upstreamBaseUrl headers = .ok request)
    (hrequest' : fromHeaders app'.router.crates body' app'.upstreamBaseUrl headers' = .ok request')
    (hcredential : auth'.fingerprint app.router.crates = auth.fingerprint app.router.crates)
    (hhash : request'.requestHash = request.requestHash) : answer' = answer := by
  obtain ⟨_, _, job, outcome, hdelivered, hsettled⟩ := delivered_later hstart hlife hwhole one
  cases hauth.symm.trans hdelivered.credentials
  cases hrequest.symm.trans hdelivered.normalized
  rw [← hcrates] at hlife' hlater'
  obtain ⟨_, _, job', outcome', hdelivered', hsettled'⟩ := delivered_later hstart hlife' hwhole' other
  cases hauth'.symm.trans hdelivered'.credentials
  cases hrequest'.symm.trans hdelivered'.normalized
  obtain ⟨-, hother⟩ := hsettled' later hlater'
  rw [hcrates, hcredential, hhash] at hother
  obtain ⟨hsound, hsettled⟩ := hsettled later hlater
  obtain ⟨hid, rfl⟩ := hsettled.unique hsound.fleet.wellFormed hother
  have hanswered := hdelivered'.answered
  unfold outcomeAnswer at hanswered
  rw [← hid] at hanswered
  exact Except.ok.inj (hanswered.symm.trans hdelivered.answered)

section Witness

private noncomputable def asking : AppState where
  router :=
    { crates := sampleCrates, mode := .batch, provider := "https://api.openai.com/v1"
      policy := { maxDirectCostUsd := 0.0, maxDirectPremiumUsd := 0.0, models := fun _ => none } }
  upstreamBaseUrl := "https://api.openai.com/v1"
  scheduler := none
  parseHttpDate _ := none

private def askerHeaders : HeaderMap := [("authorization", ⟨utf8 "Bearer a"⟩), ("idempotency-key", ⟨utf8 "k1"⟩)]

private def question : Value := .object [("input", .string "hi"), ("model", .string "gpt-5")]

private def asker : UpstreamAuth := { authorization := "Bearer a", organization := none, project := none }

private theorem asker_credentials : UpstreamAuth.fromHeaders askerHeaders = .ok asker := by decide

private theorem question_normalizes :
    ∃ request, fromHeaders sampleCrates question "https://api.openai.com/v1" askerHeaders = .ok request :=
  (batchSupported_iff ⟨_, rfl⟩).mp rfl

/-- A store with the job of a request. -/
private def holding (authHash : String) (request : NormalizedRequest) (row : JobRow) : Database where
  jobs := [{ row with authHash, requestHash := request.requestHash, id := "job" }]
  jobRequests := [⟨"job", "https://api.openai.com/v1", authHash, request.idempotencyHash, "null"⟩]

private theorem holding_wellFormed (authHash : String) (request : NormalizedRequest) (row : JobRow) :
    (holding authHash request row).WellFormed where
  uniqueIds := List.nodup_singleton _
  uniqueIdentities := List.nodup_singleton _
  uniqueRequests := List.nodup_singleton _
  uniqueKeys a ha b hb _ _ _ := by rw [List.mem_singleton.mp ha, List.mem_singleton.mp hb]
  references row hrow := by
    rw [List.mem_singleton.mp hrow]
    exact List.mem_singleton_self _

/-- The request is registered already. -/
private theorem holding_enqueue (c : Codec) (authHash : String) (request : NormalizedRequest) (row : JobRow) :
    (holding authHash request row).enqueueTransaction c "other" authHash "https://api.openai.com/v1" request =
      .ok (holding authHash request row, ⟨"job"⟩) := by
  have hjob : (holding authHash request row).insertOrIgnoreJob
      (.queued "other" authHash request.requestHash request.model) = holding authHash request row := by
    simp [Database.insertOrIgnoreJob, holding, JobRow.queued]
  have hfound : (holding authHash request row).jobIdOf authHash request.requestHash = some "job" := by
    simp [Database.jobIdOf, holding]
  have hrequest (new : RequestRow) (hnew : new.jobId = "job") :
      (holding authHash request row).insertOrIgnoreRequest c new = holding authHash request row := by
    simp [Database.insertOrIgnoreRequest, holding, hnew]
  have howner (key : String) (hkey : request.idempotencyHash = some key) :
      (holding authHash request row).ownerOf authHash key = some "job" := by
    simp [Database.ownerOf, holding, hkey]
  unfold Database.enqueueTransaction
  rw [hjob]
  dsimp only
  rw [hfound]
  dsimp only
  rw [hrequest _ rfl]
  cases hkey : request.idempotencyHash with
  | none => rfl
  | some key =>
    dsimp only
    rw [howner key hkey]
    rfl

/-- The answer to a request whose job is registered, and whose caller waits like this. -/
private theorem question_runs {request : NormalizedRequest} {row : JobRow} {s b : Registry} {job : Job}
    {states : List JobState} {outcome : StoredOutcome} {answer : Answer}
    (hrequest : fromHeaders sampleCrates question "https://api.openai.com/v1" askerHeaders = .ok request)
    (hdb : s.fleet.world.db = holding (asker.fingerprint sampleCrates) request row)
    (hjob : s.fleet.world.db.get sampleCrates.json ⟨"job"⟩ = .ok job)
    (hwaits : (HandlerOp.subscribe job asker request.batchBody).Answers sampleCrates.json
      ((s.store s.fleet.world.db).hold job) states b) (hawaits : awaitOutcome states = .ok outcome)
    (hanswer : setBatchHeaders job.id (outcomeAnswer job outcome) = .ok answer) :
    Prog.Executes (Registry.Run sampleCrates.json) (HandlerOp.Answers sampleCrates.json)
      (batchResponse asking askerHeaders question).run s (.ok answer) b := by
  have hrefl : ∀ r : Registry, Registry.Run sampleCrates.json r r := fun _ => .refl
  have hregister : (JobOp.register (asker.fingerprint sampleCrates) "https://api.openai.com/v1" request).Answers
      sampleCrates.json s (.ok ⟨"job"⟩) (s.store s.fleet.world.db) := by
    refine ⟨"other", by simp [hdb, holding], .none, s.fleet.world.db, ?_, rfl⟩
    unfold Database.register
    rw [hdb, holding_enqueue]
    rfl
  have hget : (JobOp.get ⟨"job"⟩).Answers sampleCrates.json (s.store s.fleet.world.db) (.ok job)
      ((s.store s.fleet.world.db).hold job) := .inl ⟨job, hjob, rfl, rfl⟩
  have henqueue : (HandlerOp.enqueue (asker.fingerprint sampleCrates) "https://api.openai.com/v1" request).Answers
      sampleCrates.json s (.ok job) ((s.store s.fleet.world.db).hold job) :=
    .call _ (hrefl _) hregister (.call _ (hrefl _) hget (.ret _ (hrefl _)))
  unfold batchResponse
  rw [asker_credentials, show fromHeaders asking.router.crates question asking.upstreamBaseUrl askerHeaders = .ok request
    from hrequest]
  refine .call _ (hrefl _) henqueue (.call _ (hrefl _) hwaits ?_)
  change Prog.Executes _ _ (Handler.pure (awaitOutcome states) >>= fun outcome =>
    Handler.pure (setBatchHeaders job.id (outcomeAnswer job outcome))).run _ _ _
  rw [hawaits]
  change Prog.Executes _ _ (Prog.ret (setBatchHeaders job.id (outcomeAnswer job outcome))) _ _ _
  rw [hanswer]
  exact .ret _ (hrefl _)

private theorem accepts_answer (outcome : StoredOutcome) (job : Job) (hid : job.id = ⟨"job"⟩) :
    ∃ answer, setBatchHeaders job.id (outcomeAnswer job outcome) = .ok answer := by
  rw [hid]
  exact ⟨_, rfl⟩

/-- The job before and after. -/
private def askedJob : Job := ⟨⟨"job"⟩, "gpt-5", .queued⟩

private def askedRow : JobRow := .queued "" "" "" "gpt-5"

private def refused : StoredOutcome :=
  .failed (failedResponse "gpt-5" (ProviderError.permanentHttp ⟨400, "400 Bad Request"⟩ "invalid").message)

private def refusedJob : Job := ⟨⟨"job"⟩, "gpt-5", .terminal refused⟩

private noncomputable def askedStart (request : NormalizedRequest) : Registry :=
  let db := holding (asker.fingerprint sampleCrates) request askedRow
  ⟨⟨⟨db, [.stored db]⟩, [], fun _ => none, 0⟩, fun _ => none, [], []⟩

private theorem askedStart_initial (request : NormalizedRequest) : (askedStart request).Initial :=
  ⟨⟨holding_wellFormed _ _ _, rfl, rfl, rfl⟩, rfl, rfl, rfl⟩

/-- The request is asked while its job goes on: its worker is refused the upload, and that is the answer. -/
private theorem waits_for_refusal {request : NormalizedRequest}
    (hrequest : fromHeaders sampleCrates question "https://api.openai.com/v1" askerHeaders = .ok request) :
    ∃ row answer t, setBatchHeaders ⟨"job"⟩ (outcomeAnswer refusedJob refused) = .ok answer ∧
      t.fleet.world.db = holding (asker.fingerprint sampleCrates) request row ∧
      t.fleet.world.db.get sampleCrates.json ⟨"job"⟩ = .ok refusedJob ∧
      Prog.Executes (Registry.Run sampleCrates.json) (HandlerOp.Answers sampleCrates.json)
        (batchResponse asking askerHeaders question).run (askedStart request) (.ok answer) t := by
  let s := askedStart request
  let watched := ((s.store s.fleet.world.db).hold askedJob).subscribe sampleCrates.json asker request.batchBody askedJob
  let row : JobRow :=
    { askedRow with authHash := asker.fingerprint sampleCrates, requestHash := request.requestHash, id := "job" }
  have hunique : watched.fleet.world.db.UniqueIds := List.nodup_singleton _
  obtain ⟨ended, hends⟩ := @Registry.refused_upload_ends sampleCrates.json watched 0 asker request.batchBody ⟨"job"⟩
    "gpt-5" row
    hunique rfl rfl ⟨rfl, rfl, rfl, rfl, rfl⟩ rfl ⟨400, "400 Bad Request"⟩ "invalid" (Json.compact_roundTrips _)
  obtain ⟨answer, hanswer⟩ := accepts_answer refused askedJob rfl
  refine ⟨(Transition.storeOutcome ⟨"job"⟩ .queued refused).set sampleCrates.json ⟨"now"⟩ row, answer, ended, hanswer,
    ?_, hends.stored, ?_⟩
  · rw [hends.db ⟨"now"⟩]
    exact congrArg (Database.mk · _) (congrArg ([·]) (if_pos rfl))
  · have hwaits : (HandlerOp.subscribe askedJob asker request.batchBody).Answers sampleCrates.json
        ((s.store s.fleet.world.db).hold askedJob) [.queued, .terminal refused] ended := by
      refine ⟨List.mem_cons_self, .live ⟨"job"⟩ 0, rfl, .changes .refl rfl rfl hends.run ?_ (.sees .refl ?_ rfl)⟩
      · show (published 0 ended.fleet.world.log).length ≠ _
        rw [hends.told]
        exact Nat.succ_ne_self _
      · show (published 0 ended.fleet.world.log).head? = _
        rw [hends.told]
        rfl
    exact question_runs hrequest rfl rfl hwaits rfl hanswer

/-- The request is asked, and its worker ends the job while it waits. -/
theorem batch_answers_are_stored_refused : ∃ start t : Registry, ∃ answer, Prog.Executes (Registry.Run sampleCrates.json)
    (HandlerOp.Answers sampleCrates.json) (batchResponse asking askerHeaders question).run start (.ok answer) t ∧
    (start.fleet.world.db.get sampleCrates.json ⟨"job"⟩ = .ok askedJob) ∧
    ∃ auth request job outcome, Delivered asking askerHeaders question auth request job outcome answer ∧
      Settled sampleCrates.json (auth.fingerprint sampleCrates) request.requestHash job outcome t.fleet.world.db := by
  obtain ⟨request, hrequest⟩ := question_normalizes
  obtain ⟨row, answer, t, -, -, -, hrun⟩ := waits_for_refusal hrequest
  have hwhole : wantsStream question = false := rfl
  obtain ⟨auth, _, job, outcome, hdelivered, hsettled⟩ := @batch_answers_are_stored _ _ asking askerHeaders question
    answer _ (askedStart_initial request) .refl hwhole hrun
  exact ⟨_, t, answer, hrun, rfl, auth, _, job, outcome, hdelivered, hsettled t .refl⟩

/-- The same request is asked again, of the next process: it is told the same, whatever goes on. -/
theorem equal_requests_get_equal_answers_refused : ∃ start s t : Registry, ∃ answer,
    Prog.Executes (Registry.Run sampleCrates.json) (HandlerOp.Answers sampleCrates.json)
      (batchResponse asking askerHeaders question).run start (.ok answer) t ∧ Registry.Life sampleCrates.json t s ∧
    (∃ b, Prog.Executes (Registry.Run sampleCrates.json) (HandlerOp.Answers sampleCrates.json)
      (batchResponse asking askerHeaders question).run s (.ok answer) b) ∧
    ∀ answer' b, Prog.Executes (Registry.Run sampleCrates.json) (HandlerOp.Answers sampleCrates.json)
      (batchResponse asking askerHeaders question).run s (.ok answer') b → answer' = answer := by
  obtain ⟨request, hrequest⟩ := question_normalizes
  obtain ⟨row, answer, t, hanswer, hdb, hjob, hrun⟩ := waits_for_refusal hrequest
  have hagain := @question_runs request row t.reopened _ refusedJob [refusedJob.state] refused answer hrequest hdb hjob
    ⟨List.mem_cons_self, .closed ⟨"job"⟩ refusedJob.state, rfl, .sees .refl rfl rfl⟩ rfl hanswer
  have hreopens : Registry.Life sampleCrates.json t t.reopened := .single (.reopens t)
  refine ⟨_, t.reopened, t, answer, hrun, hreopens, ⟨_, hagain⟩, fun answer' b hother => ?_⟩
  have hwhole : wantsStream question = false := rfl
  have hstart := askedStart_initial request
  have hlife := (@batchResponse_delivers _ _ asking askerHeaders question answer hstart.intact hwhole hrun).1.life
  have hnext := Relation.ReflTransGen.trans hlife hreopens
  have hlater := (@batchResponse_delivers _ _ asking askerHeaders question answer'
    (Registry.Life.intact hnext hstart.intact) hwhole hother).1.life
  exact @equal_requests_get_equal_answers _ _ asking askerHeaders question answer _ asking askerHeaders question answer'
    _ _ _ _ _ _ _ hstart hwhole hwhole rfl .refl hnext hrun hother (Relation.ReflTransGen.trans hreopens hlater) .refl
    asker_credentials asker_credentials hrequest hrequest rfl rfl

end Witness

end Batch
end Kaiion.Proxy
