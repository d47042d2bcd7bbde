import Kaiion.Proxy.JobRuns

/-! What the answers of the job API say of a job, from one answer to the next and from one process to the
next. -/
namespace Kaiion.Proxy
open Durable Foundation

/-- A request about one job. -/
inductive JobCall where
  | submit (pollIntervalSeconds : Nat) (body : Value)
  | getJob (id : JobId)
  | resume (id : JobId)

namespace JobCall

def run (app : AppState) (headers : HeaderMap) : JobCall → JobHandler Response
  | submit pollIntervalSeconds body => JobApi.submit app headers pollIntervalSeconds body
  | getJob id => JobApi.getJob app headers id
  | resume id => JobApi.resume app headers id

/-- The call asks for work on the job. -/
def accepts : JobCall → Bool
  | getJob _ => false
  | _ => true

/-- This is the job that the call of this credential is about. -/
def Names (app : AppState) (headers : HeaderMap) (auth : UpstreamAuth) (id : JobId) (db : Database) : JobCall → Prop
  | submit _ body => ∃ request, fromHeaders app.router.crates body app.upstreamBaseUrl headers = .ok request ∧
      db.Belongs id (auth.fingerprint app.router.crates) request.requestHash
  | getJob asked | resume asked => id = asked ∧
      OwnsId db (auth.fingerprint app.router.crates) app.router.provider id.text

variable {app : AppState} {headers : HeaderMap} {auth : UpstreamAuth} {s : Registry}

theorem Names.later {call : JobCall} {id : JobId} {c : Codec} {a b : Registry}
    (h : call.Names app headers auth id a.fleet.world.db) (hlife : Registry.Life c a b) (ha : a.Sound c) :
    call.Names app headers auth id b.fleet.world.db := by
  cases call with
  | submit pollIntervalSeconds body =>
    obtain ⟨request, hrequest, hbelongs⟩ := h
    exact ⟨request, hrequest, hbelongs.forward (Registry.Life.sound hlife ha).2⟩
  | getJob asked | resume asked => exact ⟨h.1, h.2.later hlife ha⟩

/-- The answer shows the job as it was read after the call came in; a call for work has it taken care of. -/
structure Answered (app : AppState) (headers : HeaderMap) (db : Database) (call : JobCall)
    (auth : UpstreamAuth) (job : Job) (response : Response) (r : Registry) : Prop where
  credentials : UpstreamAuth.fromHeaders headers = .ok auth
  status : response.status = if call.accepts then JobApi.accepted else ok200
  body : response.body = .json (jobView job)
  names : call.Names app headers auth job.id r.fleet.world.db
  since : job.Since app.router.crates.json db
  past : job.Past app.router.crates.json r.fleet.world.db
  cared : call.accepts = true → r.Cared job.id

theorem lasting_answered (app : AppState) (headers : HeaderMap) (db : Database) (call : JobCall) (response : Response) :
    Lasting app.router.crates.json fun r => ∃ auth job, Answered app headers db call auth job response r := by
  rintro a b ha hr ⟨auth, job, h⟩
  exact ⟨auth, job, h.credentials, h.status, h.body, h.names.later hr.life ha.sound, h.since,
    lasting_past job a b ha hr h.past, fun haccepts => lasting_cared job.id a b ha hr (h.cared haccepts)⟩

end JobCall

namespace JobApi
variable {c : Codec} {app : AppState} {headers : HeaderMap} {s : Registry}

/-- A job that is read with its owner is read from its row. -/
theorem ownedJob_get {db : Database} (hw : db.WellFormed) {id : JobId} {authHash provider : String} {job : Job}
    (h : db.ownedJob c id authHash provider = .ok job) :
    db.get c id = .ok job ∧ OwnsId db authHash provider id.text := by
  unfold Database.ownedJob at h
  split at h
  · cases h
  next row request hfound =>
    have hmatches := List.find?_some hfound
    simp only [Bool.and_eq_true, decide_eq_true_eq] at hmatches
    obtain ⟨⟨hid, hauth⟩, hprovider⟩ := hmatches
    obtain ⟨hrow, hrequest, hjob⟩ := Database.mem_joined.mp (List.mem_of_find?_eq_some hfound)
    refine ⟨?_, row, request, ⟨hrow, hrequest, hjob, hauth, hprovider⟩, hid⟩
    have hstored := hw.uniqueIds.row?_of_mem hrow
    rw [hid] at hstored
    unfold Database.get
    rw [hstored]
    dsimp only
    cases hdecodes : row.tryFrom c with
    | error error =>
      rw [hdecodes] at h
      cases h
    | ok decoded =>
      rw [hdecodes] at h
      cases h
      rfl

theorem ownedJob_gives (h : s.Intact c) (id : JobId) (authHash provider : String) :
    Gives c (ExceptT.mk (perform (.ownedJob id authHash provider))) (fun (job : Job) r =>
      OwnsId r.fleet.world.db authHash provider id.text ∧ Read c s.fleet.world.db id job r) s := by
  refine performs (lasting_forward s.fleet.world.db) (lasting_success fun job =>
    (lasting_ownsId authHash provider id.text).and (lasting_read _ id job)) h (.refl _) ?_
  rintro a reply b ha hforward ⟨rfl, hreply⟩ job rfl
  rcases hreply with heq | ⟨message, heq⟩
  · obtain ⟨hget, howns⟩ := ownedJob_get ha.sound.fleet.wellFormed heq.symm
    exact ⟨howns, Database.get_id hget, (Database.get_since hget).earlier hforward, Database.get_past hget⟩
  · cases heq

end JobApi

namespace JobCall
variable {app : AppState} {headers : HeaderMap} {s : Registry}

/-- What needs no waiting is done before anything else goes on. -/
private theorem credentials_gives (h : s.Intact app.router.crates.json) :
    Gives app.router.crates.json (JobApi.given (UpstreamAuth.fromHeaders headers)) (fun auth r =>
      UpstreamAuth.fromHeaders headers = .ok auth ∧ s.fleet.world.db.Forward r.fleet.world.db) s :=
  Gives.given (fun _ => (Lasting.const _).and (lasting_forward _)) h fun _ hauth => ⟨hauth, .refl _⟩

theorem submit_gives (h : s.Intact app.router.crates.json) (pollIntervalSeconds : Nat) (body : Value) :
    Gives app.router.crates.json (JobApi.submit app headers pollIntervalSeconds body) (fun response r => ∃ auth job,
      Answered app headers s.fleet.world.db (.submit pollIntervalSeconds body) auth job response r) s := by
  have hlasting := lasting_answered app headers s.fleet.world.db (.submit pollIntervalSeconds body)
  refine Gives.andThen hlasting (credentials_gives h) fun auth t ht hauth => ?_
  have hrequest : Gives app.router.crates.json
      (JobApi.given (fromHeaders app.router.crates body app.upstreamBaseUrl headers)) (fun request r =>
        fromHeaders app.router.crates body app.upstreamBaseUrl headers = .ok request ∧
          s.fleet.world.db.Forward r.fleet.world.db) t :=
    Gives.given (fun _ => (Lasting.const _).and (lasting_forward _)) ht fun _ heq => ⟨heq, hauth.2⟩
  refine Gives.andThen hlasting hrequest fun request u hu hnormalized => ?_
  refine Gives.andThen hlasting
    (JobApi.enqueue_gives hu (auth.fingerprint app.router.crates) app.router.provider request)
    fun job v hv hjob => ?_
  have hkept := (lasting_belongs (c := app.router.crates.json) job.id (auth.fingerprint app.router.crates)
    request.requestHash).and (lasting_past job)
  refine Gives.andThen hlasting
    ((JobApi.subscribe_gives hv job auth request.batchBody).keeps hkept hv ⟨hjob.1, hjob.2.2.2⟩)
    fun receiver w hw hsubscribed => ?_
  exact Gives.ok hlasting hw ⟨auth, job, hauth.1, rfl, rfl, ⟨request, hnormalized.1, hsubscribed.2.1⟩,
    hjob.2.2.1.earlier hnormalized.2, hsubscribed.2.2, fun _ => hsubscribed.1.2.2⟩

theorem getJob_gives (h : s.Intact app.router.crates.json) (id : JobId) :
    Gives app.router.crates.json (JobApi.getJob app headers id) (fun response r => ∃ auth job,
      Answered app headers s.fleet.world.db (.getJob id) auth job response r) s := by
  have hlasting := lasting_answered app headers s.fleet.world.db (.getJob id)
  refine Gives.andThen hlasting (credentials_gives h) fun auth t ht hauth => ?_
  refine Gives.andThen hlasting (JobApi.ownedJob_gives ht id (auth.fingerprint app.router.crates) app.router.provider)
    fun job u hu hjob => ?_
  obtain ⟨howns, rfl, hsince, hpast⟩ := hjob
  exact Gives.ok hlasting hu ⟨auth, job, hauth.1, rfl, rfl, ⟨rfl, howns⟩, hsince.earlier hauth.2, hpast, nofun⟩

theorem resume_gives (h : s.Intact app.router.crates.json) (id : JobId) :
    Gives app.router.crates.json (JobApi.resume app headers id) (fun response r => ∃ auth job,
      Answered app headers s.fleet.world.db (.resume id) auth job response r) s := by
  have hlasting := lasting_answered app headers s.fleet.world.db (.resume id)
  refine Gives.andThen hlasting (credentials_gives h) fun auth t ht hauth => ?_
  refine Gives.andThen hlasting
    (JobApi.ownedRequest_gives ht id (auth.fingerprint app.router.crates) app.router.provider)
    fun found u hu hfound => ?_
  obtain ⟨howns, rfl, hsince, hpast⟩ := hfound
  have hkept := (lasting_ownsId (c := app.router.crates.json) (auth.fingerprint app.router.crates) app.router.provider
    found.1.id.text).and (lasting_past found.1)
  refine Gives.andThen hlasting ((JobApi.subscribe_gives hu found.1 auth found.2).keeps hkept hu ⟨howns, hpast⟩)
    fun receiver v hv hsubscribed => ?_
  exact Gives.ok hlasting hv ⟨auth, found.1, hauth.1, rfl, rfl, ⟨rfl, hsubscribed.2.1⟩, hsince.earlier hauth.2,
    hsubscribed.2.2, fun _ => hsubscribed.1.2.2⟩

theorem run_gives (h : s.Intact app.router.crates.json) (call : JobCall) :
    Gives app.router.crates.json (call.run app headers) (fun response r => ∃ auth job,
      Answered app headers s.fleet.world.db call auth job response r) s := by
  cases call with
  | submit pollIntervalSeconds body => exact submit_gives h pollIntervalSeconds body
  | getJob id => exact getJob_gives h id
  | resume id => exact resume_gives h id

/-- The call is answered so, among everything else. -/
abbrev Returns (app : AppState) (headers : HeaderMap) (call : JobCall) (s : Registry)
    (response : Response) (t : Registry) : Prop :=
  Prog.Executes (Registry.Run app.router.crates.json) (JobOp.Answers app.router.crates.json) (call.run app headers).run s
    (.ok response) t

end JobCall

section Answers
variable {app : AppState} {headers : HeaderMap} {call : JobCall} {start s t : Registry} {response : Response}

/-- Calls about a job are answered for the credential that makes them: the job is that of its request, or
one it registered, then and ever after. A job whose work was accepted is finished or has a task for as
long as the process lives. -/
theorem accepted_jobs_are_kept (hstart : start.Initial) (hlife : Registry.Life app.router.crates.json start s)
    (answered : call.Returns app headers s response t) : ∃ auth job,
    UpstreamAuth.fromHeaders headers = .ok auth ∧ response.body = .json (jobView job) ∧
    (∀ later, Registry.Life app.router.crates.json t later →
      call.Names app headers auth job.id later.fleet.world.db) ∧
    (response.status = JobApi.accepted → ∀ later, Registry.Run app.router.crates.json t later → later.Cared job.id) := by
  obtain ⟨ht, htold⟩ := (JobCall.run_gives (hlife.intact hstart.intact) call).executes answered
  obtain ⟨auth, job, h⟩ := htold response rfl
  refine ⟨auth, job, h.credentials, h.body, fun later hlater => h.names.later hlater ht.sound,
    fun hstatus later hlater => ?_⟩
  have haccepts : call.accepts = true := by
    cases haccepts : call.accepts with
    | true => rfl
    | false =>
      have hother := h.status
      rw [haccepts, hstatus] at hother
      cases hother
  exact lasting_cared job.id t later ht hlater (h.cared haccepts)

/-- Answers about one job never go back, whoever gets them, whatever goes on in between and however often
the process is replaced: a later answer shows the same or a later stage, and once one shows how the job
ended all later ones are the same. -/
theorem job_answers_move_forward {app' : AppState} {headers' : HeaderMap} {call' : JobCall} {s' t' : Registry}
    {response' : Response} (hstart : start.Initial) (hlife : Registry.Life app.router.crates.json start s)
    (first : call.Returns app headers s response t) (between : Registry.Life app.router.crates.json t s')
    (second : call'.Returns app' headers' s' response' t') (hcrates : app'.router.crates = app.router.crates) :
    ∃ job job', response.body = .json (jobView job) ∧ response'.body = .json (jobView job') ∧
      (job.id = job'.id → job.state.stage ≤ job'.state.stage ∧
        (job.state.isTerminal = true → response'.body = response.body)) := by
  obtain ⟨ht, htold⟩ := (JobCall.run_gives (hlife.intact hstart.intact) call).executes first
  obtain ⟨auth, job, h⟩ := htold response rfl
  have hbetween := between.intact ht
  have hpast := h.past.forward (Registry.Life.sound between ht.sound).2
  rw [← hcrates] at hbetween hpast
  obtain ⟨-, htold'⟩ := (JobCall.run_gives hbetween call').executes second
  obtain ⟨auth', job', h'⟩ := htold' response' rfl
  refine ⟨job, job', h.body, h'.body, fun hid => ?_⟩
  obtain ⟨hle, hfinal⟩ := h'.since job hid hpast
  refine ⟨hle, fun hterminal => ?_⟩
  rw [h.body, h'.body, hfinal hterminal]

section Witness
open JobApi.Sample

noncomputable def keeping : AppState where
  router :=
    { crates := sampleCrates, mode := .batch, provider := "https://api.openai.com/v1"
      policy := { maxDirectCostUsd := 0.0, maxDirectPremiumUsd := 0.0, models := fun _ => none } }
  upstreamBaseUrl := "https://api.openai.com/v1"
  scheduler := none
  parseHttpDate _ := none

def keeperHeaders : HeaderMap := [("authorization", ⟨utf8 "Bearer a"⟩)]

noncomputable def resumed : Response := jsonResponse JobApi.accepted [] (jobView keptJob)

theorem resume_returns : (JobCall.resume ⟨"ab"⟩).Returns keeping keeperHeaders waking resumed woken := by
  have hbody : (JobOp.ownedBody ⟨"ab"⟩ (keeper.fingerprint sampleCrates) "https://api.openai.com/v1").Answers
      sampleCrates.json waking (.ok (some "null")) waking := ⟨rfl, .inl (congrArg Except.ok kept_body.symm)⟩
  have hget : (JobOp.get ⟨"ab"⟩).Answers sampleCrates.json waking (.ok keptJob) (waking.hold keptJob) :=
    .inl ⟨keptJob, kept_get, rfl, rfl⟩
  have hsubscribe : (JobOp.subscribe keptJob keeper .null).Answers sampleCrates.json (waking.hold keptJob)
      (.live ⟨"ab"⟩ 0) woken := ⟨List.mem_cons_self, rfl, rfl⟩
  have hrefl : ∀ r : Registry, Registry.Run sampleCrates.json r r := fun _ => .refl
  have hparse : keeping.router.crates.json.parse "null" = .ok .null := (Json.compact_roundTrips .null).1
  have hauth : UpstreamAuth.fromHeaders keeperHeaders = .ok keeper := by decide
  unfold JobCall.Returns JobCall.run JobApi.resume
  rw [hauth]
  refine .call _ (hrefl _) hbody (.call _ (hrefl _) hget ?_)
  rw [hparse]
  exact .call _ (hrefl _) hsubscribe (.ret _ (hrefl _))

theorem getJob_returns {r : Registry} {job : Job} (hread : r.fleet.world.db.ownedJob sampleCrates.json ⟨"ab"⟩
    (keeper.fingerprint sampleCrates) "https://api.openai.com/v1" = .ok job) :
    (JobCall.getJob ⟨"ab"⟩).Returns keeping keeperHeaders r (jsonResponse ok200 [] (jobView job)) r := by
  have hanswers : (JobOp.ownedJob ⟨"ab"⟩ (keeper.fingerprint sampleCrates) "https://api.openai.com/v1").Answers
      sampleCrates.json r (.ok job) r := ⟨rfl, .inl hread.symm⟩
  have hrefl : ∀ r : Registry, Registry.Run sampleCrates.json r r := fun _ => .refl
  have hauth : UpstreamAuth.fromHeaders keeperHeaders = .ok keeper := by decide
  unfold JobCall.Returns JobCall.run JobApi.getJob
  rw [hauth]
  exact .call _ (hrefl _) hanswers (.ret _ (hrefl _))

/-- A job is resumed. -/
theorem accepted_job_is_kept : (JobCall.resume ⟨"ab"⟩).Returns keeping keeperHeaders waking resumed woken ∧
    woken.Cared ⟨"ab"⟩ := by
  obtain ⟨auth, job, -, hbody, hnames, hcared⟩ := accepted_jobs_are_kept waking_initial .refl resume_returns
  obtain ⟨hid, -⟩ := hnames woken .refl
  exact ⟨resume_returns, hid ▸ hcared rfl woken .refl⟩

/-- A job is resumed; its worker ends it, and the next process shows how. -/
theorem job_answers_move_forward_resumed : ∃ s t : Registry, Registry.Life sampleCrates.json woken s ∧
    (JobCall.getJob ⟨"ab"⟩).Returns keeping keeperHeaders s (jsonResponse ok200 [] (jobView endedJob)) t ∧
    ∃ job job' : Job, resumed.body = .json (jobView job) ∧
      (jsonResponse ok200 [] (jobView endedJob)).body = .json (jobView job') ∧
      (job.id = job'.id → job.state.stage ≤ job'.state.stage) := by
  obtain ⟨ended, hends⟩ := woken_ends
  have hlife : Registry.Life sampleCrates.json woken ended.reopened := hends.run.life.tail (.reopens ended)
  have howned := ended_owned hends
  have hshown := @getJob_returns ended.reopened endedJob howned
  obtain ⟨job, job', hbody, hbody', h⟩ :=
    job_answers_move_forward waking_initial .refl resume_returns hlife hshown rfl
  exact ⟨ended.reopened, ended.reopened, hlife, hshown, job, job', hbody, hbody', fun hid => (h hid).1⟩

end Witness

end Answers
end Kaiion.Proxy
