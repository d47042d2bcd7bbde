import Kaiion.Proxy.HandlerRuns

/-! The answer to the question about a route is what the proxy then does. -/
namespace Kaiion.Proxy
open Durable Foundation Scheduling
open Foundation.Prog (Event Runs Uses)

section Explanation
variable {app : AppState} {headers : HeaderMap} {body : Value}

/-- A question to the store or to the scheduler. -/
def HandlerOp.Looks : HandlerOp → Prop
  | checkIdempotency _ _ | find _ _ | live (.preview _) => True
  | _ => False

private theorem looks_of_read (op : HandlerOp) (h : op.IsRead) : op.Looks := by
  cases op with
  | checkIdempotency | find => exact trivial
  | _ => exact h.elim

theorem explain_uses : Uses HandlerOp.Looks (explain app headers body).run := by
  refine .andThen trivial fun _ => .andThen trivial fun requestedMode => ?_
  refine .andThen ((routeHandler_uses app.router headers body).mono looks_of_read) fun decision => ?_
  dsimp only
  split
  · exact trivial
  · exact .andThen trivial fun request => .andThen (.lifted (Uses.performs (HandlerOp.live (.preview request)) trivial))
      fun _ => trivial

section Eval
variable (replies : (op : HandlerOp) → op.Reply)

/-- An answer with its route reason. -/
def withReason (answered : String × Answer) : Answer :=
  { answered.2 with headers := insertHeader answered.2.headers "x-kaiion-route-reason" (textHeader answered.1) }

private theorem embed_eval {α : Type} (p : Live α) :
    (Handler.embed p).eval replies = p.eval fun op => replies (.live op) := by
  induction p with
  | ret value => rfl
  | call op next ih => exact ih _

private theorem responses_eval : (responses app headers body).run.eval replies =
    (resolveMode app.router.crates headers app.router.mode).bind fun mode =>
      ((routeHandler app.router headers body).run.eval replies).bind fun decision =>
        ((respond app headers body mode decision).run.eval replies).map withReason := by
  unfold responses
  rw [Prog.eval_andThen]
  refine congrArg _ (funext fun mode => ?_)
  rw [Prog.eval_andThen]
  refine congrArg _ (funext fun decision => ?_)
  rw [Prog.eval_andThen]
  cases (respond app headers body mode decision).run.eval replies <;> rfl

/-- What is explained of a decision. -/
def explained (app : AppState) (headers : HeaderMap) (body : Value) (replies : (op : HandlerOp) → op.Reply) (mode : Mode)
    (decision : RouteDecision) : Except ProxyError Explanation :=
  let explanation : Explanation := { decision, enabled := app.scheduler.isSome, recommendation := none
                                     asyncAlias := ((body.get "model").bind Value.asStr).any fun model => (modelAlias model).2 }
  match app.scheduler.filter (fun _ => decision.mode = .direct) with
  | none => .ok explanation
  | some scheduler => ((scheduler.call app headers body mode).makeScheduleRequest 0 none).map fun request =>
      explanation.recommended request.allowBatchFallback (replies (.live (.preview request)))

private theorem explain_eval : (explain app headers body).run.eval replies =
    (UpstreamAuth.fromHeaders headers).bind fun _ => (resolveMode app.router.crates headers app.router.mode).bind fun mode =>
      ((routeHandler app.router headers body).run.eval replies).bind (explained app headers body replies mode) := by
  unfold explain
  rw [Prog.eval_andThen]
  refine congrArg _ (funext fun _ => ?_)
  rw [Prog.eval_andThen]
  refine congrArg _ (funext fun mode => ?_)
  rw [Prog.eval_andThen]
  refine congrArg _ (funext fun decision => ?_)
  unfold explained
  dsimp only
  cases hscheduler : app.scheduler.filter (fun _ => decide (decision.mode = .direct)) with
  | none => rfl
  | some scheduler =>
    dsimp only
    rw [Prog.eval_andThen]
    cases hrequest : (scheduler.call app headers body mode).makeScheduleRequest 0 none <;> rfl

private theorem route_eval_resolves {decision : RouteDecision}
    (h : (routeHandler app.router headers body).run.eval replies = .ok decision) : decision.mode ≠ .auto := by
  obtain ⟨events, hrun⟩ := Prog.eval_runs replies (routeHandler app.router headers body).run
  rw [h] at hrun
  exact route_resolves hrun

/-- What becomes of a live call. -/
def became (app : AppState) (headers : HeaderMap) (body : Value) (replies : (op : HandlerOp) → op.Reply) (reason : String) :
    ScheduledDirect → Except ProxyError (String × Answer)
  | .live response | .unavailable response => .ok (reason, .ofResponse response)
  | .batch reason => ((batchResponse app headers body).run.eval replies).map fun answer => (reason, answer)

private theorem answerLive_eval {scheduler : Enabled} (hscheduler : app.scheduler = some scheduler) (mode : Mode)
    (reason : String) : (answerLive app headers body mode reason).run.eval replies =
      ((scheduler.call app headers body mode).scheduledDirectResponse.eval fun op => replies (.live op)).bind
        (became app headers body replies reason) := by
  unfold answerLive
  rw [hscheduler]
  dsimp only
  rw [Prog.eval_andThen]
  change Except.bind ((Handler.embed _).eval replies) _ = _
  rw [embed_eval]
  refine congrArg _ (funext fun outcome => ?_)
  cases outcome with
  | live | unavailable => rfl
  | batch reason =>
    dsimp only
    rw [Prog.eval_andThen]
    unfold became
    cases (batchResponse app headers body).run.eval replies <;> rfl

/-- A request without credentials is not answered. -/
private theorem answer_unauthorized {error : ProxyError} (hauth : UpstreamAuth.fromHeaders headers = .error error)
    (mode : Mode)
    (decision : RouteDecision) : ∃ error, (respond app headers body mode decision).run.eval replies = .error error := by
  have hbatch : (batchResponse app headers body).run.eval replies = .error error := by
    unfold batchResponse
    rw [hauth]
    rfl
  unfold respond
  split
  · cases hscheduler : app.scheduler with
    | none =>
      refine ⟨error, ?_⟩
      unfold answerLive directResponse
      rw [hscheduler, hauth]
      rfl
    | some scheduler =>
      refine ⟨error, ?_⟩
      have hrequest : (scheduler.call app headers body mode).makeScheduleRequest 0 none = .error error := by
        unfold DirectCall.makeScheduleRequest
        change Except.bind (UpstreamAuth.fromHeaders headers) _ = _
        rw [hauth]
        rfl
      rw [answerLive_eval replies hscheduler]
      unfold DirectCall.scheduledDirectResponse
      rw [hrequest]
      rfl
  · refine ⟨error, ?_⟩
    rw [Prog.eval_andThen, hbatch]
    rfl
  · exact ⟨_, rfl⟩

/-- What the answer to the question leaves open: the request as it is sent to Batch, or to the live path. -/
def promised (app : AppState) (headers : HeaderMap) (body : Value) (replies : (op : HandlerOp) → op.Reply) (mode : Mode)
    (decision : RouteDecision) : Except ProxyError (String × Answer) :=
  if decision.mode = .batch then
    ((batchResponse app headers body).run.eval replies).map fun answer => (decision.reason, answer)
  else (answerLive app headers body mode decision.reason).run.eval replies

private theorem answer_eval {mode : Mode} {decision : RouteDecision} (hmode : decision.mode ≠ .auto) :
    (respond app headers body mode decision).run.eval replies = promised app headers body replies mode decision := by
  unfold respond promised
  cases hdecision : decision.mode with
  | direct => rfl
  | batch =>
    dsimp only
    rw [Prog.eval_andThen, if_pos rfl]
    cases (batchResponse app headers body).run.eval replies <;> rfl
  | auto => exact absurd hdecision hmode

/-- A recommendation that the request may follow is followed before anything else. -/
private theorem recommended_eval {call : DirectCall} {request : ScheduleRequest} {reason : String}
    (hrequest : call.makeScheduleRequest 0 none = .ok request) (hallowed : request.allowBatchFallback = true)
    (live : (op : Op) → op.Reply) (hreply : live (.preview request) = some reason) :
    call.scheduledDirectResponse.eval live = .ok (.batch reason) := by
  unfold DirectCall.scheduledDirectResponse
  rw [hrequest]
  dsimp only
  unfold DirectCall.batchOr
  rw [if_pos hallowed]
  refine (Prog.eval_bind live (Prog.perform (Op.preview request)) _).trans ?_
  rw [show Prog.eval live (Prog.perform (Op.preview request)) = some reason from hreply]
  rfl

private theorem recommended_some {explanation : Explanation} {allowed : Bool} {recommendation : Option String}
    {reason : String} (h : recommendation.filter (fun _ => allowed) = some reason) :
    (explanation.recommended allowed recommendation).decision = { explanation.decision with mode := .batch, reason } := by
  unfold Explanation.recommended
  rw [h]

private theorem recommended_none {explanation : Explanation} {allowed : Bool} {recommendation : Option String}
    (h : recommendation.filter (fun _ => allowed) = none) :
    (explanation.recommended allowed recommendation).decision = explanation.decision := by
  unfold Explanation.recommended
  rw [h]

/-- What was explained is what the decision is answered with. -/
private theorem explained_answer {mode : Mode} {decision : RouteDecision} (hmode : decision.mode ≠ .auto)
    {explanation : Explanation} (h : explained app headers body replies mode decision = .ok explanation) :
    explanation.decision.mode ≠ .auto ∧ (respond app headers body mode decision).run.eval replies =
      promised app headers body replies mode explanation.decision := by
  unfold explained at h
  dsimp only at h
  split at h
  · cases h
    exact ⟨hmode, answer_eval replies hmode⟩
  next scheduler hscheduler =>
    obtain ⟨hscheduler, hdirect⟩ := Option.filter_eq_some_iff.mp hscheduler
    have hdecision : decision.mode = .direct := of_decide_eq_true hdirect
    cases hrequest : (scheduler.call app headers body mode).makeScheduleRequest 0 none with
    | error error =>
      rw [hrequest] at h
      cases h
    | ok request =>
      rw [hrequest] at h
      obtain rfl := Except.ok.inj h
      dsimp only
      cases hfilter : (replies (.live (.preview request))).filter (fun _ => request.allowBatchFallback) with
      | none =>
        rw [recommended_none hfilter]
        exact ⟨hmode, answer_eval replies hmode⟩
      | some reason =>
        obtain ⟨hreply, hallowed⟩ := Option.filter_eq_some_iff.mp hfilter
        rw [recommended_some hfilter, answer_eval replies hmode]
        refine ⟨nofun, ?_⟩
        unfold promised
        rw [if_neg (by rw [hdecision]; nofun), if_pos rfl, answerLive_eval replies hscheduler,
          recommended_eval hrequest hallowed _ hreply]
        rfl

/-- What cannot be explained is not answered. -/
private theorem explained_error {mode : Mode} {decision : RouteDecision} {error : ProxyError}
    (h : explained app headers body replies mode decision = .error error) :
    (respond app headers body mode decision).run.eval replies = .error error := by
  unfold explained at h
  dsimp only at h
  split at h
  · cases h
  next scheduler hscheduler =>
    obtain ⟨hscheduler, hdirect⟩ := Option.filter_eq_some_iff.mp hscheduler
    have hdecision : decision.mode = .direct := of_decide_eq_true hdirect
    cases hrequest : (scheduler.call app headers body mode).makeScheduleRequest 0 none with
    | ok request =>
      rw [hrequest] at h
      cases h
    | error refused =>
      rw [hrequest] at h
      cases h
      unfold respond
      rw [hdecision]
      dsimp only
      rw [answerLive_eval replies hscheduler]
      unfold DirectCall.scheduledDirectResponse
      rw [hrequest]
      rfl

end Eval

/-- The question about a route only looks at the store and at the scheduler. With the same replies the
request is then answered as was said: it goes to Batch, or to the live path, with that reason; and where
there is no explanation there is no answer. -/
theorem explanation_is_what_happens (app : AppState) (headers : HeaderMap) (body : Value) :
    (∀ allowed events result, Runs allowed (explain app headers body).run events result → ∀ event ∈ events, event.1.Looks) ∧
    ∀ replies : (op : HandlerOp) → op.Reply, match (explain app headers body).run.eval replies with
      | .error _ => ∃ error, (responses app headers body).run.eval replies = .error error
      | .ok explanation => explanation.decision.mode ≠ .auto ∧ ∃ mode,
        resolveMode app.router.crates headers app.router.mode = .ok mode ∧ (responses app headers body).run.eval replies =
          (promised app headers body replies mode explanation.decision).map withReason := by
  refine ⟨fun allowed events result hrun => explain_uses.runs hrun, fun replies => ?_⟩
  rw [explain_eval, responses_eval]
  cases hauth : UpstreamAuth.fromHeaders headers with
  | error error =>
    cases resolveMode app.router.crates headers app.router.mode with
    | error error => exact ⟨_, rfl⟩
    | ok mode =>
      cases (routeHandler app.router headers body).run.eval replies with
      | error error => exact ⟨_, rfl⟩
      | ok decision =>
        obtain ⟨error, herror⟩ := answer_unauthorized replies hauth mode decision
        refine ⟨error, ?_⟩
        change ((respond app headers body mode decision).run.eval replies).map withReason = _
        rw [herror]
        rfl
  | ok auth =>
    cases resolveMode app.router.crates headers app.router.mode with
    | error error => exact ⟨error, rfl⟩
    | ok mode =>
      cases hroute : (routeHandler app.router headers body).run.eval replies with
      | error error => exact ⟨error, rfl⟩
      | ok decision =>
        change match explained app headers body replies mode decision with
          | .error _ => ∃ error, ((respond app headers body mode decision).run.eval replies).map withReason = .error error
          | .ok explanation => explanation.decision.mode ≠ .auto ∧ ∃ resolved, Except.ok mode = .ok resolved ∧
            ((respond app headers body mode decision).run.eval replies).map withReason =
              (promised app headers body replies resolved explanation.decision).map withReason
        cases hexplained : explained app headers body replies mode decision with
        | error error => exact ⟨error, by rw [explained_error replies hexplained]; rfl⟩
        | ok explanation =>
          obtain ⟨hmode, hanswer⟩ := explained_answer replies (route_eval_resolves replies hroute) hexplained
          exact ⟨hmode, mode, rfl, by rw [hanswer]⟩

end Explanation
end Kaiion.Proxy
