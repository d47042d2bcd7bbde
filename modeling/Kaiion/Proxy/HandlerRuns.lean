import Kaiion.Proxy.Handler
import Kaiion.Proxy.LiveRetries
import Kaiion.Proxy.SpentKeys

/-! What a request for a response can make the proxy do, and what its answer says of it. -/
namespace Kaiion.Proxy
open Durable Foundation Scheduling
open Foundation.Prog (Event Runs Uses)

/-- A wait of a live call: the clock, the scheduler or the upstream. -/
def HandlerOp.IsLive : HandlerOp → Prop
  | live _ => True
  | _ => False

/-- A question to the store. -/
def HandlerOp.IsRead : HandlerOp → Prop
  | checkIdempotency _ _ | find _ _ => True
  | _ => False

/-- What makes a durable job of a request. -/
def HandlerOp.IsBatch : HandlerOp → Prop
  | enqueue _ _ _ | subscribe _ _ _ => True
  | _ => False

section Uses
variable (router : Router) (app : AppState) (headers : HeaderMap) (body : Value)

private theorem embed_uses {α : Type} (p : Live α) : Uses HandlerOp.IsLive (Handler.embed p) := by
  induction p with
  | ret value => exact trivial
  | call op next ih => exact ⟨trivial, ih⟩

private theorem existingJob_uses (auth : UpstreamAuth) (request : Option NormalizedRequest) :
    Uses HandlerOp.IsRead (existingJob router auth request).run := by
  cases request with
  | none => exact trivial
  | some request =>
    exact .andThen (Uses.performs (HandlerOp.checkIdempotency _ _) trivial) fun _ =>
      .andThen (.lifted (Uses.performs (HandlerOp.find _ _) trivial)) fun _ => trivial

private theorem routeAuto_uses : Uses HandlerOp.IsRead (routeAuto router headers body).run := by
  refine .andThen trivial fun auth => .andThen trivial fun batchRequest => ?_
  refine .andThen (existingJob_uses router auth batchRequest) fun existing => ?_
  split
  · exact trivial
  · refine .andThen trivial fun providerBody => ?_
    dsimp only
    split <;> exact trivial

theorem routeHandler_uses : Uses HandlerOp.IsRead (routeHandler router headers body).run := by
  refine .andThen trivial fun mode => ?_
  split
  · exact trivial
  · exact routeAuto_uses router headers body

private theorem directResponse_uses : Uses HandlerOp.IsLive (directResponse headers body).run :=
  .andThen trivial fun _ => .andThen (embed_uses _) fun _ => trivial

private theorem batchResponse_uses : Uses HandlerOp.IsBatch (batchResponse app headers body).run := by
  refine .andThen trivial fun auth => .andThen trivial fun request => ?_
  refine .andThen (Uses.performs (HandlerOp.enqueue _ _ _) trivial) fun job => ?_
  refine .andThen (.lifted (Uses.performs (HandlerOp.subscribe _ _ _) trivial)) fun states => ?_
  split
  · exact trivial
  · exact .andThen trivial fun _ => trivial

end Uses

section Route
variable {router : Router} {headers : HeaderMap} {body : Value} {allowed : (op : HandlerOp) → op.Reply → Prop}
  {events : List (Event HandlerOp.Reply)} {decision : RouteDecision}

private theorem routeAuto_resolves (h : Runs allowed (routeAuto router headers body).run events (.ok decision)) :
    decision.mode ≠ .auto := by
  rcases Runs.of_andThen h with ⟨_, he, -⟩ | ⟨auth, _, _, -, -, h⟩
  · cases he
  rcases Runs.of_andThen h with ⟨_, he, -⟩ | ⟨batchRequest, _, _, -, -, h⟩
  · cases he
  rcases Runs.of_andThen h with ⟨_, he, -⟩ | ⟨existing, _, _, -, -, h⟩
  · cases he
  split at h
  · cases (Runs.of_ret h).2
    exact nofun
  rcases Runs.of_andThen h with ⟨_, he, -⟩ | ⟨providerBody, _, _, -, -, h⟩
  · cases he
  dsimp only at h
  split at h
  · cases (Runs.of_ret h).2
    exact nofun
  · cases (Runs.of_ret h).2
    rcases RoutingPolicy.decide_mode router.crates router.policy providerBody with hmode | hmode
    · exact fun he => nomatch hmode.symm.trans he
    · exact fun he => nomatch hmode.symm.trans he

/-- A route is an execution mode. -/
theorem route_resolves (h : Runs allowed (routeHandler router headers body).run events (.ok decision)) :
    decision.mode ≠ .auto := by
  rcases Runs.of_andThen h with ⟨_, he, -⟩ | ⟨mode, _, _, -, -, h⟩
  · cases he
  split at h
  next hmode =>
    cases (Runs.of_ret h).2
    exact hmode
  next => exact routeAuto_resolves h

/-- Where the store is read twice, this is `Router.route` on what was read. -/
theorem routeHandler_eval {atCheck atFind : Database} (replies : (op : HandlerOp) → op.Reply)
    (hcheck : ∀ authHash request, replies (.checkIdempotency authHash request) = atCheck.checkIdempotency authHash request)
    (hfind : ∀ authHash requestHash,
      replies (.find authHash requestHash) = atFind.find router.crates.json authHash requestHash) :
    (routeHandler router headers body).run.eval replies = router.route atCheck atFind headers body := by
  have hexisting (auth : UpstreamAuth) (request : Option NormalizedRequest) :
      (existingJob router auth request).run.eval replies = router.existingJob atCheck atFind auth request := by
    cases request with
    | none => rfl
    | some request =>
      unfold existingJob Router.existingJob
      rw [Prog.eval_andThen]
      change Except.bind (replies (.checkIdempotency _ request)) _ = _
      rw [hcheck]
      dsimp only
      rw [← hfind]
      rfl
  unfold routeHandler Router.route
  rw [Prog.eval_andThen]
  refine congrArg (Except.bind _) (funext fun mode => ?_)
  split
  · rfl
  unfold routeAuto
  rw [Prog.eval_andThen]
  refine congrArg (Except.bind _) (funext fun auth => ?_)
  rw [Prog.eval_andThen]
  refine congrArg (Except.bind _) (funext fun batchRequest => ?_)
  rw [Prog.eval_andThen, hexisting]
  refine congrArg (Except.bind _) (funext fun existing => ?_)
  split
  · rfl
  rw [Prog.eval_andThen]
  refine congrArg (Except.bind _) (funext fun providerBody => ?_)
  dsimp only
  split <;> rfl

/-- A mode that the client asked for is its route. -/
theorem route_explicit {mode : Mode} (hmode : resolveMode router.crates headers router.mode = .ok mode)
    (hexplicit : mode ≠ .auto) :
    (routeHandler router headers body).run = .ret (.ok { mode, reason := "explicit_mode" }) := by
  unfold routeHandler
  rw [hmode]
  exact congrArg ExceptT.run (if_pos hexplicit)

end Route

/-- All headers of this name. -/
def HeaderMap.getAll (headers : HeaderMap) (name : String) : List HeaderValue :=
  (headers.filter fun header => header.1 = name).map Prod.snd

@[simp] theorem getAll_insertHeader (headers : HeaderMap) (name : String) (value : HeaderValue) :
    HeaderMap.getAll (insertHeader headers name value) name = [value] := by
  unfold HeaderMap.getAll insertHeader
  rw [List.filter_append, List.filter_filter]
  simp

theorem getAll_insertHeader_ne {headers : HeaderMap} {name other : String} {value : HeaderValue} (h : other ≠ name) :
    HeaderMap.getAll (insertHeader headers name value) other = HeaderMap.getAll headers other := by
  unfold HeaderMap.getAll insertHeader
  rw [List.filter_append, List.filter_filter, List.map_append, List.filter_cons_of_neg (by simpa using h.symm)]
  refine (List.append_nil _).trans (congrArg _ (List.filter_congr fun header _ => ?_))
  by_cases hname : header.1 = other
  · simp [hname, h]
  · simp [hname]

/-- The answer of a live call, if there is one, says so. -/
def TellsDirect : Except ProxyError ScheduledDirect → Prop
  | .ok (.live response) | .ok (.unavailable response) =>
    HeaderMap.getAll response.headers "x-kaiion-mode" = [textHeader "direct"]
  | _ => True

namespace DirectCall
variable {call : DirectCall}

private theorem serve_tells (upstream : Upstream) (permit : SchedulePermit) :
    Prog.Returns TellsDirect (call.serve upstream permit) := by
  have hheaders : HeaderMap.getAll (insertHeader (copyResponseHeaders upstream.headers) "x-kaiion-mode" (textHeader "direct"))
      "x-kaiion-mode" = [textHeader "direct"] := getAll_insertHeader ..
  refine Prog.Returns.bind ?_
  unfold scheduledUpstreamResponse
  split
  · exact hheaders
  · refine Prog.Returns.performs fun bytes => ?_
    cases bytes with
    | error error => exact Prog.Returns.after fun _ => trivial
    | ok bytes => exact Prog.Returns.after fun _ => hheaders

private theorem unavailable_tells (reason : String) (retryAfter : Option Nat) :
    TellsDirect (.ok (.unavailable (schedulingUnavailable reason retryAfter))) := getAll_insertHeader ..

private theorem batchOr_tells (request : ScheduleRequest) {otherwise : Live (Except ProxyError ScheduledDirect)}
    (h : Prog.Returns TellsDirect otherwise) : Prog.Returns TellsDirect (batchOr request otherwise) := by
  unfold batchOr
  split
  · refine Prog.Returns.performs fun recommendation => ?_
    cases recommendation with
    | some reason => exact trivial
    | none => exact h
  · exact h

/-- The attempts that may follow tell the same. -/
def Tells (again : Again) : Prop := ∀ f, again = some f → ∀ last delay, Prog.Returns TellsDirect (f last delay)

private theorem answered_tells {deadline : Nat} {again : Again} (hagain : Tells again) (request : ScheduleRequest)
    (permit : SchedulePermit) (upstream : Upstream) :
    Prog.Returns TellsDirect (call.answered deadline again request permit upstream) := by
  unfold answered
  split
  · exact serve_tells upstream permit
  next f hf =>
    refine Prog.Returns.performs fun systemTime => Prog.Returns.performs fun now => ?_
    split
    · split
      · refine Prog.Returns.performs fun recommendation => ?_
        cases recommendation with
        | some reason => exact Prog.Returns.after fun _ => trivial
        | none => exact serve_tells upstream permit
      · exact serve_tells upstream permit
    · exact Prog.Returns.after fun _ => hagain f (Option.filter_eq_some_iff.mp hf).1 _ _

private theorem failed_tells {again : Again} (hagain : Tells again) (request : ScheduleRequest) (permit : SchedulePermit)
    (error : ProxyError) : Prog.Returns TellsDirect (failed again request permit error) := by
  unfold failed
  split
  · refine Prog.Returns.performs fun _ => ?_
    cases again with
    | some f => exact hagain f rfl _ _
    | none => exact trivial
  · exact Prog.Returns.after fun _ => trivial

private theorem attempt_tells (deadline : Nat) {again : Again} (hagain : Tells again) (number : Nat)
    (last : ScheduleRequest) (delay : Option Nat) :
    Prog.Returns TellsDirect (call.attempt deadline again number last delay) := by
  have hexpired : Prog.Returns TellsDirect expired := unavailable_tells "max_wait_exceeded" none
  have hunavailable (reason : String) (retryAfter : Option Nat) :
      Prog.Returns TellsDirect (unavailable deadline reason retryAfter) :=
    Prog.Returns.performs fun _ => unavailable_tells reason _
  refine Prog.Returns.performs fun now => ?_
  split
  · exact batchOr_tells last hexpired
  split
  · exact trivial
  next request _ =>
    refine Prog.Returns.performs fun outcome => ?_
    cases outcome with
    | none => exact batchOr_tells request hexpired
    | some outcome =>
      rcases outcome with error | outcome
      · exact trivial
      cases outcome with
      | dispatch permit =>
        refine Prog.Returns.after fun answered => ?_
        cases answered with
        | ok upstream => exact answered_tells hagain request permit upstream
        | error error => exact failed_tells hagain request permit error
      | recommendBatch reason retryAfter =>
        dsimp only
        split
        · exact trivial
        · exact hunavailable _ retryAfter
      | retryExhausted reason retryAfter => exact batchOr_tells request (hunavailable reason retryAfter)

private theorem attempts_tell (deadline retries number : Nat) (last : ScheduleRequest) (delay : Option Nat) :
    Prog.Returns TellsDirect (call.attempts deadline retries number last delay) := by
  induction retries generalizing number last delay with
  | zero => exact attempt_tells deadline (fun f he => by cases he) number last delay
  | succ retries ih =>
    refine attempt_tells deadline (fun f he => ?_) number last delay
    cases he
    exact fun last delay => ih (number + 1) last delay

theorem scheduledDirectResponse_tells : Prog.Returns TellsDirect call.scheduledDirectResponse := by
  unfold scheduledDirectResponse
  split
  · exact trivial
  next request _ => exact batchOr_tells request (Prog.Returns.performs fun now => attempts_tell _ _ _ _ _)

end DirectCall

section Pretence

private noncomputable def unscheduled : AppState where
  router := (DirectCall.sampleCall .direct []).router
  upstreamBaseUrl := "https://api.openai.com/v1"
  scheduler := none
  parseHttpDate _ := none

private def credentialHeaders : HeaderMap := [("authorization", ⟨utf8 "Bearer a"⟩)]

private def prompt : Value := .object [("input", .string "hi"), ("model", .string "gpt-5")]

/-- The same request for Batch, with a key. -/
private def keyedHeaders : HeaderMap :=
  credentialHeaders ++ [("idempotency-key", ⟨utf8 "k1"⟩), ("x-kaiion-mode", ⟨utf8 "batch"⟩)]

private def promptJob : Job := ⟨⟨"job"⟩, "gpt-5", .queued⟩

private def solved : StoredOutcome := .completed (.object [("output", .array [])])

/-- An upstream that claims to have answered through Batch. -/
private def pretender : Upstream := ⟨ok200, [("x-kaiion-mode", textHeader "batch")]⟩

private def pretence : (op : HandlerOp) → op.Reply
  | .live (.send _ _) => .ok pretender
  | .live (.bytes _) => .ok []
  | .live .now | .live .systemTime => (0 : Nat)
  | .live (.preview _) | .live (.acquire _ _) => none
  | .live (.complete _ _ _ _) | .live (.abort _) => ()
  | .checkIdempotency _ _ => .ok ()
  | .find _ _ => .ok none
  | .enqueue _ _ _ => .ok promptJob
  | .subscribe _ _ _ => [.queued, .terminal solved]

private def honest : Answer where
  status := ok200
  headers := [("x-kaiion-mode", textHeader "direct"), ("x-kaiion-route-reason", textHeader "explicit_mode")]
  body := .upstream pretender

private theorem pretence_runs : ∃ events, Runs (fun op reply => reply = pretence op)
    (responses unscheduled credentialHeaders prompt).run events (.ok honest) :=
  Prog.eval_runs pretence (responses unscheduled credentialHeaders prompt).run

private def delivered : Answer where
  status := ok200
  headers := [("content-type", textHeader "application/json"), ("x-kaiion-mode", textHeader "batch"),
    ("x-kaiion-job-id", textHeader "job"), ("x-kaiion-route-reason", textHeader "explicit_mode")]
  body := .own (.json (responseValue solved ⟨"job"⟩))

private theorem delivered_runs : ∃ events, Runs (fun op reply => reply = pretence op)
    (responses unscheduled keyedHeaders prompt).run events (.ok delivered) :=
  Prog.eval_runs pretence (responses unscheduled keyedHeaders prompt).run

end Pretence

section Responses
variable {app : AppState} {headers : HeaderMap} {body : Value} {allowed : (op : HandlerOp) → op.Reply → Prop}
  {events : List (Event HandlerOp.Reply)} {answer : Answer} {mode : Mode}

/-- The request was answered live, and no job was made of it. -/
structure ToldDirect (events : List (Event HandlerOp.Reply)) (answer : Answer) : Prop where
  mode : HeaderMap.getAll answer.headers "x-kaiion-mode" = [textHeader "direct"]
  noJob : ∀ event ∈ events, ¬ event.1.IsBatch

/-- The last thing that was done is one enqueue of this request, under the client's credentials, and the
answer is that of its job. -/
structure ToldBatch (app : AppState) (headers : HeaderMap) (body : Value) (events : List (Event HandlerOp.Reply))
    (answer : Answer) (auth : UpstreamAuth) (request : NormalizedRequest) (job : Job) (states : List JobState) : Prop where
  credentials : UpstreamAuth.fromHeaders headers = .ok auth
  normalized : fromHeaders app.router.crates body app.upstreamBaseUrl headers = .ok request
  enqueued : ∃ before, (∀ event ∈ before, ¬ event.1.IsBatch) ∧ events = before ++
    [⟨.enqueue (auth.fingerprint app.router.crates) app.router.provider request, .ok job⟩,
      ⟨.subscribe job auth request.batchBody, states⟩]
  mode : HeaderMap.getAll answer.headers "x-kaiion-mode" = [textHeader "batch"]
  jobId : HeaderMap.getAll answer.headers "x-kaiion-job-id" = [textHeader job.id.text]
  body : (wantsStream body = true ∧ answer.body = .events job) ∨
    (wantsStream body = false ∧ ∃ outcome, awaitOutcome states = .ok outcome ∧
      answer.body = .own (.json (responseValue outcome job.id)))

/-- What an answer tells. -/
def Told (app : AppState) (headers : HeaderMap) (body : Value) (events : List (Event HandlerOp.Reply))
    (answer : Answer) : Prop :=
  ToldDirect events answer ∨
    ∃ auth request job states, ToldBatch app headers body events answer auth request job states

private theorem setBatchHeaders_ok {jobId : JobId} {answer : Answer} {told : Answer}
    (h : setBatchHeaders jobId answer = .ok told) :
    HeaderMap.getAll told.headers "x-kaiion-mode" = [textHeader "batch"] ∧
      HeaderMap.getAll told.headers "x-kaiion-job-id" = [textHeader jobId.text] ∧ told.body = answer.body := by
  unfold setBatchHeaders headerFromStr at h
  split at h
  · cases h
    refine ⟨?_, getAll_insertHeader .., rfl⟩
    rw [getAll_insertHeader_ne (by decide), getAll_insertHeader]
  · cases h

private theorem batchResponse_told (h : Runs allowed (batchResponse app headers body).run events (.ok answer)) :
    ∃ auth request job states, ToldBatch app headers body events answer auth request job states := by
  rcases Runs.of_andThen h with ⟨_, he, -⟩ | ⟨auth, _, _, rfl, hauth, h₁⟩
  · cases he
  obtain ⟨rfl, hcredentials⟩ := Runs.of_ret hauth
  rcases Runs.of_andThen h₁ with ⟨_, he, -⟩ | ⟨request, _, _, rfl, hrequest, h₂⟩
  · cases he
  obtain ⟨rfl, hnormalized⟩ := Runs.of_ret hrequest
  rcases Runs.of_andThen h₂ with ⟨_, he, -⟩ | ⟨job, _, _, rfl, hjob, h₃⟩
  · cases he
  obtain rfl := Runs.of_performed hjob
  rcases Runs.of_andThen h₃ with ⟨_, he, -⟩ | ⟨states, _, _, rfl, hstates, h₄⟩
  · cases he
  obtain ⟨_, he, hstates⟩ := Runs.of_lift hstates
  cases he
  obtain rfl := Runs.of_performed hstates
  have hbefore : ∀ event ∈ ([] : List (Event HandlerOp.Reply)), ¬ event.1.IsBatch := fun _ he => nomatch he
  split at h₄
  next hstream =>
    obtain ⟨rfl, htold⟩ := Runs.of_ret h₄
    obtain ⟨hmode, hid, hbody⟩ := setBatchHeaders_ok htold.symm
    exact ⟨auth, request, job, states, hcredentials.symm, hnormalized.symm, ⟨[], hbefore, rfl⟩, hmode, hid,
      .inl ⟨hstream, hbody⟩⟩
  next hstream =>
    rcases Runs.of_andThen h₄ with ⟨_, he, -⟩ | ⟨outcome, _, _, rfl, houtcome, h₅⟩
    · cases he
    obtain ⟨rfl, hfound⟩ := Runs.of_ret houtcome
    obtain ⟨rfl, htold⟩ := Runs.of_ret h₅
    obtain ⟨hmode, hid, hbody⟩ := setBatchHeaders_ok htold.symm
    exact ⟨auth, request, job, states, hcredentials.symm, hnormalized.symm, ⟨[], hbefore, rfl⟩, hmode, hid,
      .inr ⟨Bool.eq_false_of_not_eq_true hstream, outcome, hfound.symm, hbody⟩⟩

private theorem not_batch_of_live {events : List (Event HandlerOp.Reply)} (h : ∀ event ∈ events, event.1.IsLive) :
    ∀ event ∈ events, ¬ event.1.IsBatch := by
  rintro ⟨op, reply⟩ he
  have hlive := h _ he
  cases op with
  | live op => exact id
  | _ => exact hlive.elim

private theorem not_batch_of_read {events : List (Event HandlerOp.Reply)} (h : ∀ event ∈ events, event.1.IsRead) :
    ∀ event ∈ events, ¬ event.1.IsBatch := by
  rintro ⟨op, reply⟩ he
  have hread := h _ he
  cases op with
  | checkIdempotency | find => exact id
  | _ => exact hread.elim

/-- What came before makes no job. -/
private theorem Told.behind {before : List (Event HandlerOp.Reply)} (hbefore : ∀ event ∈ before, ¬ event.1.IsBatch)
    (h : Told app headers body events answer) : Told app headers body (before ++ events) answer := by
  rcases h with h | ⟨auth, request, job, states, h⟩
  · exact .inl ⟨h.mode, fun event he => (List.mem_append.mp he).elim (hbefore event) (h.noJob event)⟩
  · obtain ⟨earlier, hearlier, hevents⟩ := h.enqueued
    refine .inr ⟨auth, request, job, states, h.credentials, h.normalized, ⟨before ++ earlier, fun event he => ?_, ?_⟩,
      h.mode, h.jobId, h.body⟩
    · exact (List.mem_append.mp he).elim (hbefore event) (hearlier event)
    · rw [hevents, List.append_assoc]

private theorem directResponse_told (h : Runs allowed (directResponse headers body).run events (.ok answer)) :
    Told app headers body events answer := by
  have hnoJob := not_batch_of_live ((directResponse_uses headers body).runs h)
  rcases Runs.of_andThen h with ⟨_, he, -⟩ | ⟨auth, _, _, -, -, h⟩
  · cases he
  rcases Runs.of_andThen h with ⟨_, he, -⟩ | ⟨upstream, _, _, -, -, h⟩
  · cases he
  cases (Runs.of_ret h).2
  exact .inl ⟨getAll_insertHeader .., hnoJob⟩

private theorem embed_returns {α : Type} {post : α → Prop} {p : Live α} (h : Prog.Returns post p) :
    Prog.Returns post (Handler.embed p) := by
  induction p with
  | ret value => exact h
  | call op next ih => exact fun reply => ih reply (h reply)

private theorem answerLive_told {reason : String} {answered : String × Answer}
    (h : Runs allowed (answerLive app headers body mode reason).run events (.ok answered)) :
    Told app headers body events answered.2 := by
  unfold answerLive at h
  split at h
  · rcases Runs.of_andThen h with ⟨_, he, -⟩ | ⟨answer, _, _, rfl, hdirect, h⟩
    · cases he
    obtain ⟨rfl, hanswered⟩ := Runs.of_ret h
    cases hanswered
    rw [List.append_nil]
    exact directResponse_told hdirect
  next scheduler hscheduler =>
    rcases Runs.of_andThen h with ⟨_, he, -⟩ | ⟨became, first, _, rfl, hlive, h⟩
    · cases he
    have htells := (embed_returns DirectCall.scheduledDirectResponse_tells).runs hlive
    have hfirst := not_batch_of_live ((embed_uses _).runs hlive)
    cases became with
    | live response | unavailable response =>
      obtain ⟨rfl, hanswered⟩ := Runs.of_ret h
      cases hanswered
      rw [List.append_nil]
      exact .inl ⟨htells, hfirst⟩
    | batch reason =>
      rcases Runs.of_andThen h with ⟨_, he, -⟩ | ⟨answer, _, _, rfl, hbatch, h⟩
      · cases he
      obtain ⟨rfl, hanswered⟩ := Runs.of_ret h
      cases hanswered
      rw [List.append_nil]
      exact Told.behind hfirst (.inr (batchResponse_told hbatch))

private theorem answer_told {decision : RouteDecision} {answered : String × Answer}
    (h : Runs allowed (respond app headers body mode decision).run events (.ok answered)) :
    Told app headers body events answered.2 := by
  unfold respond at h
  split at h
  · exact answerLive_told h
  · rcases Runs.of_andThen h with ⟨_, he, -⟩ | ⟨answer, _, _, rfl, hbatch, h⟩
    · cases he
    obtain ⟨rfl, hanswered⟩ := Runs.of_ret h
    cases hanswered
    rw [List.append_nil]
    exact .inr (batchResponse_told hbatch)
  · cases (Runs.of_ret h).2

/-- The route reason changes nothing else of the headers. -/
private theorem Told.reason {reason : String} (h : Told app headers body events answer) :
    Told app headers body events { answer with
      headers := insertHeader answer.headers "x-kaiion-route-reason" (textHeader reason) } := by
  rcases h with h | ⟨auth, request, job, states, h⟩
  · exact .inl ⟨(getAll_insertHeader_ne (by decide)).trans h.mode, h.noJob⟩
  · exact .inr ⟨auth, request, job, states, h.credentials, h.normalized, h.enqueued,
      (getAll_insertHeader_ne (by decide)).trans h.mode, (getAll_insertHeader_ne (by decide)).trans h.jobId, h.body⟩

/-- Whatever the store, the scheduler, the upstream and the workers reply, an answer names one reason and
one mode, whatever headers the upstream sent: `direct`, and no job was made of the request, or `batch`,
and the last thing that was done is the one enqueue of this request under the client's credentials, whose
job the answer names and whose outcome it gives. -/
theorem answers_tell_what_was_done (h : Runs allowed (responses app headers body).run events (.ok answer)) :
    (∃ reason, HeaderMap.getAll answer.headers "x-kaiion-route-reason" = [textHeader reason]) ∧
      Told app headers body events answer := by
  rcases Runs.of_andThen h with ⟨_, he, -⟩ | ⟨mode, _, _, rfl, hmode, h₁⟩
  · cases he
  obtain ⟨rfl, -⟩ := Runs.of_ret hmode
  rcases Runs.of_andThen h₁ with ⟨_, he, -⟩ | ⟨decision, reads, _, rfl, hroute, h₂⟩
  · cases he
  rcases Runs.of_andThen h₂ with ⟨_, he, -⟩ | ⟨answered, _, _, rfl, hanswer, h₃⟩
  · cases he
  obtain ⟨rfl, hanswered⟩ := Runs.of_ret h₃
  cases hanswered
  rw [List.nil_append, List.append_nil]
  refine ⟨⟨answered.1, getAll_insertHeader ..⟩, Told.reason (Told.behind ?_ (answer_told hanswer))⟩
  exact not_batch_of_read ((routeHandler_uses app.router headers body).runs hroute)

/-- The upstream's claim is not passed on, and the same prompt with a key is answered for its job. -/
theorem answers_tell_what_was_done_pretence : (∃ events, ToldDirect events honest) ∧
    ∃ events auth request job states,
      ToldBatch unscheduled keyedHeaders prompt events delivered auth request job states := by
  refine ⟨?_, ?_⟩
  · obtain ⟨events, hrun⟩ := pretence_runs
    rcases (answers_tell_what_was_done hrun).2 with hdirect | ⟨_, _, _, _, hbatch⟩
    · exact ⟨events, hdirect⟩
    · exact absurd hbatch.mode (by decide)
  · obtain ⟨events, hrun⟩ := delivered_runs
    rcases (answers_tell_what_was_done hrun).2 with hdirect | ⟨auth, request, job, states, hbatch⟩
    · exact absurd hdirect.mode (by decide)
    · exact ⟨events, auth, request, job, states, hbatch⟩

end Responses

section Explicit
variable {app : AppState} {headers : HeaderMap} {body : Value} {allowed : (op : HandlerOp) → op.Reply → Prop}
  {events : List (Event HandlerOp.Reply)}

/-- A run within a handler is a run. -/
private theorem runs_of_embed {α : Type} {p : Live α} {value : α} (h : Runs allowed (Handler.embed p) events value) :
    ∃ events, Runs (fun op reply => allowed (.live op) reply) p events value := by
  induction p generalizing events with
  | ret result =>
    obtain ⟨-, rfl⟩ := Runs.of_ret h
    exact ⟨[], .ret _⟩
  | call op next ih =>
    cases h with
    | call reply ok rest =>
      obtain ⟨events, hrest⟩ := ih reply rest
      exact ⟨_, .call (id reply : op.Reply) ok hrest⟩

/-- Only an auto request may fall back to Batch. -/
private theorem auto_of_fallback {call : DirectCall} {n : Nat} {delay : Option Nat} {request : ScheduleRequest}
    (h : call.makeScheduleRequest n delay = .ok request) (hfallback : request.allowBatchFallback = true) :
    call.requestedMode = .auto := by
  unfold DirectCall.makeScheduleRequest at h
  obtain ⟨_, -, hrest⟩ := bind_ok h
  obtain ⟨_, -, hrest⟩ := bind_ok hrest
  obtain ⟨_, -, hrest⟩ := bind_ok hrest
  obtain ⟨allowed, hallowed, hrest⟩ := bind_ok hrest
  obtain ⟨_, -, hrest⟩ := bind_ok hrest
  obtain ⟨_, -, hrest⟩ := bind_ok hrest
  cases hrest
  cases (show allowed = true from hfallback)
  unfold DirectCall.allowBatchFallback at hallowed
  split at hallowed
  next hauto => exact hauto
  next => cases hallowed

private theorem auto_of_batch {call : DirectCall} {allowed : (op : Op) → op.Reply → Prop} {events : List (Event Op.Reply)}
    {reason : String} (h : Runs allowed call.scheduledDirectResponse events (.ok (.batch reason))) :
    call.requestedMode = .auto := by
  obtain ⟨account, -, hverdict⟩ := Prog.Judged.run h DirectCall.passes_scheduledDirectResponse
  obtain ⟨_, _, _, hmake, hfallback⟩ := hverdict.batch reason rfl
  exact auto_of_fallback hmake hfallback

private theorem answerLive_live {mode : Mode} (hmode : mode ≠ .auto) {reason : String}
    {result : Except ProxyError (String × Answer)}
    (h : Runs allowed (answerLive app headers body mode reason).run events result) : ∀ event ∈ events, event.1.IsLive := by
  unfold answerLive at h
  split at h
  · refine Uses.runs (Uses.andThen (directResponse_uses headers body) fun _ => ?_) h
    exact trivial
  next scheduler hscheduler =>
    rcases Runs.of_andThen h with ⟨_, -, hlive⟩ | ⟨became, first, later, hevents, hlive, hrest⟩
    · exact (embed_uses _).runs hlive
    cases became with
    | live | unavailable =>
      obtain ⟨rfl, -⟩ := Runs.of_ret hrest
      rw [hevents, List.append_nil]
      exact (embed_uses _).runs hlive
    | batch reason =>
      obtain ⟨_, hrun⟩ := runs_of_embed hlive
      exact absurd (auto_of_batch hrun) hmode

/-- A request whose mode the client named is never served the other way: with `direct` nothing is asked of
the store and no job comes of it, with `batch` nothing is asked of the scheduler or sent upstream. -/
theorem explicit_modes_do_not_cross {result : Except ProxyError Answer}
    (h : Runs allowed (responses app headers body).run events result) :
    (resolveMode app.router.crates headers app.router.mode = .ok .direct → ∀ event ∈ events, event.1.IsLive) ∧
    (resolveMode app.router.crates headers app.router.mode = .ok .batch → ∀ event ∈ events, event.1.IsBatch) := by
  have hparts (mode : Mode) (hmode : resolveMode app.router.crates headers app.router.mode = .ok mode)
      (hexplicit : mode ≠ .auto) : ∃ result events', Runs allowed
        (respond app headers body mode { mode, reason := "explicit_mode" }).run events' result ∧ events = events' := by
    unfold responses at h
    rw [hmode] at h
    rcases Runs.of_andThen h with ⟨_, -, h₁⟩ | ⟨resolved, first, _, hfirst, h₁, h₂⟩
    · cases (Runs.of_ret h₁).2
    obtain ⟨rfl, hresolved⟩ := Runs.of_ret h₁
    cases hresolved
    rcases Runs.of_andThen h₂ with ⟨_, -, h₃⟩ | ⟨decision, first, later, hevents, h₃, h₄⟩
    · rw [route_explicit hmode hexplicit] at h₃
      cases (Runs.of_ret h₃).2
    rw [route_explicit hmode hexplicit] at h₃
    obtain ⟨rfl, hdecision⟩ := Runs.of_ret h₃
    cases hdecision
    rcases Runs.of_andThen h₄ with ⟨_, -, h₅⟩ | ⟨answered, first, last, hlater, h₅, h₆⟩
    · exact ⟨_, _, h₅, by rw [hfirst, hevents]; rfl⟩
    · obtain ⟨rfl, -⟩ := Runs.of_ret h₆
      exact ⟨_, _, h₅, by rw [hfirst, hevents, hlater]; simp⟩
  refine ⟨fun hmode => ?_, fun hmode => ?_⟩
  · obtain ⟨result, events', hrun, rfl⟩ := hparts .direct hmode (by decide)
    exact answerLive_live (by decide) hrun
  · obtain ⟨result, events', hrun, rfl⟩ := hparts .batch hmode (by decide)
    refine Uses.runs (Uses.andThen (batchResponse_uses app headers body) fun _ => ?_) hrun
    exact trivial

/-- Nothing is asked of the store, or nothing else. -/
theorem explicit_modes_do_not_cross_pretence :
    (∃ events, Runs (fun op reply => reply = pretence op) (responses unscheduled credentialHeaders prompt).run events
      (.ok honest) ∧ ∀ event ∈ events, event.1.IsLive) ∧
    ∃ events, Runs (fun op reply => reply = pretence op) (responses unscheduled keyedHeaders prompt).run events
      (.ok delivered) ∧ ∀ event ∈ events, event.1.IsBatch := by
  obtain ⟨direct, hdirect⟩ := pretence_runs
  obtain ⟨batch, hbatch⟩ := delivered_runs
  exact ⟨⟨direct, hdirect, (explicit_modes_do_not_cross hdirect).1 rfl⟩, batch, hbatch,
    (explicit_modes_do_not_cross hbatch).2 rfl⟩

end Explicit

end Kaiion.Proxy
