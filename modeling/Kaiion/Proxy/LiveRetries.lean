import Kaiion.Proxy.ScheduledDirect
import Kaiion.Request.Identity

/-! What a live call does to the upstream and to its permits, over every behaviour of the scheduler
and the upstream. -/
namespace Kaiion.Proxy
open Durable Foundation Scheduling Prog

/-- An attempt after which another one is safe: the connection failed, the upstream refused, or it
failed on a request that carries an idempotency key. -/
def mayRetry (headers : HeaderMap) : Outcome → Bool
  | .error error => error.isConnect
  | .ok upstream => upstream.status.code = tooManyRequests ||
      (upstream.status.isServerError && (headers.get idempotencyHeader).isSome)

/-- What an auditor writes down: the upstream requests so far, and the permit that is not settled yet
with the outcome of the request sent under it. -/
structure Account where
  outcomes : List Outcome
  held : Option (SchedulePermit × Option Outcome)

def Account.opened : Account := { outcomes := [], held := none }

def neverConnected : Option Outcome → Bool
  | some (.error error) => error.isConnect
  | _ => false

/-- The held permit is settled, if the request sent under it allows that. -/
def Account.settle (account : Account) (permit : SchedulePermit) (accepts : Option Outcome → Bool) :
    Option Account :=
  match account.held with
  | some (held, outcome) =>
    if held = permit ∧ accepts outcome then some { account with held := none } else none
  | none => none

/-- The rules of the audit: no permit is sought while one is held, each is used for one request and
settled once, and no request follows an attempt that may have been accepted. -/
def Account.audit (headers : HeaderMap) (account : Account) : Event Op.Reply → Option Account
  | ⟨.acquire _ _, reply⟩ =>
    if account.held.isSome then none
    else
      match (reply : Option (Except String ScheduleOutcome)) with
      | some (.ok (.dispatch permit)) => some { account with held := some (permit, none) }
      | _ => some account
  | ⟨.send _ _, outcome⟩ =>
    match account.held with
    | some (permit, none) =>
      if account.outcomes.getLast?.all (mayRetry headers) then
        some { outcomes := account.outcomes ++ [outcome], held := some (permit, some outcome) }
      else none
    | _ => none
  | ⟨.complete permit _ _ _, _⟩ => account.settle permit (fun _ => true)
  | ⟨.abort permit, _⟩ => account.settle permit neverConnected
  | ⟨.now, _⟩ | ⟨.systemTime, _⟩ | ⟨.preview _, _⟩ | ⟨.bytes _, _⟩ => some account

/-- The upstream requests of a run with what became of them. -/
def sends (events : List (Event Op.Reply)) : List Outcome :=
  events.filterMap fun
    | ⟨.send _ _, outcome⟩ => some outcome
    | _ => none

private theorem Account.settle_outcomes {account next : Account} {permit : SchedulePermit}
    {accepts : Option Outcome → Bool} (h : account.settle permit accepts = some next) :
    next.outcomes = account.outcomes := by
  unfold Account.settle at h
  split at h
  · split at h
    · cases h
      rfl
    · cases h
  · cases h

private theorem Account.audit_outcomes {headers : HeaderMap} {account next : Account} {event : Event Op.Reply}
    (h : account.audit headers event = some next) : next.outcomes = account.outcomes ++ sends [event] := by
  obtain ⟨op, reply⟩ := event
  cases op with
  | send headers body =>
    dsimp only [Account.audit] at h
    split at h
    · split at h
      · cases h
        rfl
      · cases h
    · cases h
  | acquire remaining request =>
    rw [show sends [⟨.acquire remaining request, reply⟩] = [] from rfl, List.append_nil]
    dsimp only [Account.audit] at h
    split at h
    · cases h
    · split at h <;> cases h <;> rfl
  | complete permit inputTokens outputTokens cacheReadHit =>
    exact (Account.settle_outcomes h).trans (List.append_nil _).symm
  | abort permit => exact (Account.settle_outcomes h).trans (List.append_nil _).symm
  | _ =>
    cases h
    exact (List.append_nil _).symm

/-- The audit writes down the upstream requests. -/
theorem Account.outcomes_of_audit {headers : HeaderMap} {events : List (Event Op.Reply)} {account final : Account}
    (h : events.foldlM (Account.audit headers) account = some final) :
    final.outcomes = account.outcomes ++ sends events := by
  induction events generalizing account with
  | nil =>
    cases h
    exact (List.append_nil _).symm
  | cons event events ih =>
    rw [List.foldlM_cons] at h
    obtain ⟨next, hnext, hrest⟩ := Option.bind_eq_some_iff.mp h
    rw [ih hrest, Account.audit_outcomes hnext, List.append_assoc, sends, sends, ← List.filterMap_append]
    rfl

/-- At the end no permit is held but one that a streamed body carries on. -/
def Account.Settled (account : Account) : Except ProxyError ScheduledDirect → Prop
  | .ok (.live ⟨_, _, .stream permit⟩) => ∃ outcome, account.held = some (permit, outcome)
  | _ => account.held = none

namespace DirectCall
variable {call : DirectCall} {allowed : (op : Op) → op.Reply → Prop}

/-- Some attempt of the call may fall back to Batch. -/
def MayFallBack (call : DirectCall) : Prop :=
  ∃ number delay request, call.makeScheduleRequest number delay = .ok request ∧ request.allowBatchFallback = true

/-- Between two attempts: nothing is held, and every request so far may be repeated. -/
structure Ready (call : DirectCall) (number : Nat) (account : Account) : Prop where
  idle : account.held = none
  sent : account.outcomes.length = number
  retried : ∀ outcome ∈ account.outcomes, mayRetry call.headers outcome = true

/-- What a finished call has to answer for. -/
structure Verdict (call : DirectCall) (result : Except ProxyError ScheduledDirect) (account : Account) : Prop where
  settled : account.Settled result
  bounded : account.outcomes.length ≤ call.scheduler.policy.maxRetries + 1
  batch : ∀ reason, result = .ok (.batch reason) → call.MayFallBack

/-- The program passes the audit from here on. -/
abbrev Passes (call : DirectCall) (allowed : (op : Op) → op.Reply → Prop)
    (program : Live (Except ProxyError ScheduledDirect)) (account : Account) : Prop :=
  Judged allowed (Account.audit call.headers) program call.Verdict account

variable {account : Account} {number : Nat}

/-- A call that ends between two attempts without Batch. -/
private theorem Ready.verdict (h : call.Ready number account)
    (hnumber : number ≤ call.scheduler.policy.maxRetries) {result : Except ProxyError ScheduledDirect}
    (hlive : ∀ response, result ≠ .ok (.live response)) (hbatch : ∀ reason, result ≠ .ok (.batch reason)) :
    call.Verdict result account where
  settled := by
    unfold Account.Settled
    split
    next permit => exact absurd rfl (hlive _)
    · exact h.idle
  bounded := by rw [h.sent]; omega
  batch reason hreason := absurd hreason (hbatch reason)

private theorem Ready.batch (h : call.Ready number account)
    (hnumber : number ≤ call.scheduler.policy.maxRetries) (hfallback : call.MayFallBack) (reason : String) :
    call.Verdict (.ok (.batch reason)) account where
  settled := h.idle
  bounded := by rw [h.sent]; omega
  batch _ _ := hfallback

private theorem passes_batchOr (h : call.Ready number account) (hnumber : number ≤ call.scheduler.policy.maxRetries)
    {request : ScheduleRequest} (hrequest : ∃ n delay, call.makeScheduleRequest n delay = .ok request)
    {otherwise : Live (Except ProxyError ScheduledDirect)} (hotherwise : call.Passes allowed otherwise account) :
    call.Passes allowed (batchOr request otherwise) account := by
  unfold batchOr
  split
  next hallow =>
    refine Judged.ignore (fun _ => rfl) fun reply _ => ?_
    cases reply with
    | none => exact hotherwise
    | some reason =>
      obtain ⟨n, delay, hmake⟩ := hrequest
      exact h.batch hnumber ⟨n, delay, request, hmake, hallow⟩ reason
  · exact hotherwise

private theorem passes_unavailable (h : call.Ready number account)
    (hnumber : number ≤ call.scheduler.policy.maxRetries) (deadline : Nat) (reason : String) (retryAfter : Option Nat) :
    call.Passes allowed (unavailable deadline reason retryAfter) account :=
  Judged.ignore (fun _ => rfl) fun _ _ => h.verdict hnumber nofun nofun

/-- A request was sent under the held permit; the ones before it may be repeated. -/
structure Sent (call : DirectCall) (number : Nat) (permit : SchedulePermit) (outcome : Outcome)
    (account : Account) : Prop where
  held : account.held = some (permit, some outcome)
  sent : account.outcomes.length = number + 1
  retried : mayRetry call.headers outcome = true → ∀ other ∈ account.outcomes, mayRetry call.headers other = true

variable {permit : SchedulePermit} {outcome : Outcome} {upstream : Upstream}

/-- The permit of the sent request is settled. -/
private theorem Sent.settle (h : call.Sent number permit outcome account) {accepts : Option Outcome → Bool}
    (haccepts : accepts (some outcome) = true) :
    account.settle permit accepts = some { account with held := none } := by
  unfold Account.settle
  rw [h.held]
  exact if_pos ⟨rfl, haccepts⟩

/-- A settled attempt that may be repeated leads to the next one. -/
private theorem Sent.ready (h : call.Sent number permit outcome account)
    (hretry : mayRetry call.headers outcome = true) :
    call.Ready (number + 1) { account with held := none } :=
  ⟨rfl, h.sent, h.retried hretry⟩

/-- A call that ends with the permit of its last request settled, and without Batch. -/
private theorem Sent.verdict (h : call.Sent number permit outcome account)
    (hnumber : number ≤ call.scheduler.policy.maxRetries) {result : Except ProxyError ScheduledDirect}
    (hsettled : Account.Settled { account with held := none } result)
    (hbatch : ∀ reason, result ≠ .ok (.batch reason)) :
    call.Verdict result { account with held := none } where
  settled := hsettled
  bounded := by rw [h.sent]; omega
  batch reason hreason := absurd hreason (hbatch reason)

private theorem passes_serve (h : call.Sent number permit outcome account)
    (hnumber : number ≤ call.scheduler.policy.maxRetries) (upstream : Upstream) :
    call.Passes allowed (call.serve upstream permit) account := by
  unfold serve scheduledUpstreamResponse
  split
  · exact {
      settled := ⟨some outcome, h.held⟩
      bounded := by rw [h.sent]; omega
      batch := nofun }
  · refine Judged.bind (Judged.ignore (fun _ => rfl) fun reply _ => ?_)
    cases reply with
    | error error =>
      refine Judged.perform fun _ _ => ⟨_, h.settle rfl, ?_⟩
      exact h.verdict hnumber rfl nofun
    | ok bytes =>
      refine Judged.perform fun _ _ => ⟨_, h.settle rfl, ?_⟩
      exact h.verdict hnumber rfl nofun

/-- The next attempt, if there is one, passes from any account that is ready for it. -/
def Continues (call : DirectCall) (allowed : (op : Op) → op.Reply → Prop) (number : Nat) : Again → Prop
  | none => number = call.scheduler.policy.maxRetries
  | some again => number < call.scheduler.policy.maxRetries ∧
      ∀ request, (∃ n delay, call.makeScheduleRequest n delay = .ok request) → ∀ delay account,
        call.Ready (number + 1) account → call.Passes allowed (again request delay) account

private theorem Continues.le {again : Again} (h : call.Continues allowed number again) :
    number ≤ call.scheduler.policy.maxRetries := by
  cases again with
  | none => exact Nat.le_of_eq h
  | some again => exact Nat.le_of_lt h.1

private theorem passes_answered {again : Again} (hagain : call.Continues allowed number again)
    (h : call.Sent number permit (.ok upstream) account) {request : ScheduleRequest}
    (hrequest : ∃ n delay, call.makeScheduleRequest n delay = .ok request) (deadline : Nat) :
    call.Passes allowed (call.answered deadline again request permit upstream) account := by
  unfold answered
  split
  · exact passes_serve h hagain.le upstream
  next again' hsome =>
    obtain ⟨rfl, hretry⟩ := Option.filter_eq_some_iff.mp hsome
    refine Judged.ignore (fun _ => rfl) fun systemTime _ => Judged.ignore (fun _ => rfl) fun now _ => ?_
    split
    · split
      next hlimited =>
        refine Judged.ignore (fun _ => rfl) fun reply _ => ?_
        cases reply with
        | none => exact passes_serve h hagain.le upstream
        | some reason =>
          obtain ⟨n, delay, hmake⟩ := hrequest
          obtain ⟨hlimit, hallow⟩ := Bool.and_eq_true_iff.mp hlimited
          refine Judged.perform fun _ _ => ⟨_, h.settle rfl, ?_⟩
          exact (h.ready hretry).batch hagain.1 ⟨n, delay, request, hmake, hallow⟩ _
      · exact passes_serve h hagain.le upstream
    · refine Judged.perform fun _ _ => ⟨_, h.settle rfl, ?_⟩
      exact hagain.2 request hrequest _ _ (h.ready hretry)

private theorem passes_failed {again : Again} (hagain : call.Continues allowed number again)
    {error : TransportError} (h : call.Sent number permit (.error error) account)
    {request : ScheduleRequest} (hrequest : ∃ n delay, call.makeScheduleRequest n delay = .ok request) :
    call.Passes allowed (failed again request permit (.transport error)) account := by
  obtain ⟨isConnect, message⟩ := error
  cases isConnect with
  | true =>
    refine Judged.perform fun _ _ => ⟨_, h.settle rfl, ?_⟩
    cases again with
    | none => exact h.verdict hagain.le rfl nofun
    | some again => exact hagain.2 request hrequest none _ (h.ready rfl)
  | false =>
    refine Judged.perform fun _ _ => ⟨_, h.settle rfl, ?_⟩
    exact h.verdict hagain.le rfl nofun

/-- A made request has an upstream body. -/
theorem upstreamBody_of_made {n : Nat} {delay : Option Nat} {request : ScheduleRequest}
    (h : call.makeScheduleRequest n delay = .ok request) : ∃ body, upstreamBody call.body = .ok body := by
  unfold makeScheduleRequest at h
  obtain ⟨_, -, hrest⟩ := bind_ok h
  obtain ⟨_, -, hrest⟩ := bind_ok hrest
  obtain ⟨_, -, hrest⟩ := bind_ok hrest
  obtain ⟨_, -, hrest⟩ := bind_ok hrest
  obtain ⟨_, -, hrest⟩ := bind_ok hrest
  obtain ⟨body, hbody, -⟩ := bind_ok hrest
  exact ⟨body, hbody⟩

private theorem passes_attempt (again : Again) (hagain : call.Continues allowed number again)
    (h : call.Ready number account) {last : ScheduleRequest}
    (hlast : ∃ n delay, call.makeScheduleRequest n delay = .ok last) (deadline : Nat) (delay : Option Nat) :
    call.Passes allowed (call.attempt deadline again number last delay) account := by
  have hle := hagain.le
  have hidle : account.held.isSome = false := by rw [h.idle]; rfl
  unfold attempt
  refine Judged.ignore (fun _ => rfl) fun now _ => ?_
  split
  · exact passes_batchOr h hle hlast (h.verdict hle nofun nofun)
  · cases hmake : call.makeScheduleRequest number delay with
    | error error => exact h.verdict hle nofun nofun
    | ok request =>
      refine Judged.perform fun reply _ => ?_
      match reply with
      | none =>
        exact ⟨account, by simp [Account.audit, hidle],
          passes_batchOr h hle ⟨_, _, hmake⟩ (h.verdict hle nofun nofun)⟩
      | some (.error error) => exact ⟨account, by simp [Account.audit, hidle], h.verdict hle nofun nofun⟩
      | some (.ok (.recommendBatch reason retryAfter)) =>
        refine ⟨account, by simp [Account.audit, hidle], ?_⟩
        dsimp only
        split
        next hallow => exact h.batch hle ⟨_, _, request, hmake, hallow⟩ reason
        · exact passes_unavailable h hle deadline _ _
      | some (.ok (.retryExhausted reason retryAfter)) =>
        exact ⟨account, by simp [Account.audit, hidle],
          passes_batchOr h hle ⟨_, _, hmake⟩ (passes_unavailable h hle deadline _ _)⟩
      | some (.ok (.dispatch permit)) =>
        refine ⟨{ account with held := some (permit, none) }, by simp [Account.audit, hidle], ?_⟩
        obtain ⟨body, hbody⟩ := upstreamBody_of_made hmake
        -- Every earlier request may be repeated, so one more may follow.
        have hmay : account.outcomes.getLast?.all (mayRetry call.headers) = true := by
          cases hlast : account.outcomes.getLast? with
          | none => rfl
          | some outcome => exact h.retried outcome (List.mem_of_getLast? hlast)
        have hsent (outcome : Outcome) : call.Sent number permit outcome
            { outcomes := account.outcomes ++ [outcome], held := some (permit, some outcome) } := by
          refine ⟨rfl, by simp [h.sent], fun hretry other hother => ?_⟩
          rcases List.mem_append.mp hother with hother | hother
          · exact h.retried other hother
          · rw [List.mem_singleton.mp hother]
            exact hretry
        unfold direct
        rw [hbody]
        refine Judged.bind (Judged.perform fun outcome _ => ⟨_, by simp [Account.audit, hmay]; rfl, ?_⟩)
        cases outcome with
        | error error => exact passes_failed hagain (hsent _) ⟨_, _, hmake⟩
        | ok upstream => exact passes_answered hagain (hsent _) ⟨_, _, hmake⟩ deadline

theorem passes_attempts (deadline retries : Nat)
    (hretries : number + retries = call.scheduler.policy.maxRetries) (h : call.Ready number account)
    {last : ScheduleRequest} (hlast : ∃ n delay, call.makeScheduleRequest n delay = .ok last) (delay : Option Nat) :
    call.Passes allowed (call.attempts deadline retries number last delay) account := by
  induction retries generalizing number account last delay with
  | zero => exact passes_attempt none hretries h hlast deadline delay
  | succ retries ih =>
    refine passes_attempt (some _) ⟨by omega, fun request hrequest delay account hready => ?_⟩ h hlast
      deadline delay
    exact ih (by omega) hready hrequest delay

/-- The whole call passes the audit. -/
theorem passes_scheduledDirectResponse :
    call.Passes allowed call.scheduledDirectResponse .opened := by
  have hopened : call.Ready 0 .opened := ⟨rfl, rfl, fun _ h => (nomatch h)⟩
  unfold scheduledDirectResponse
  cases hmake : call.makeScheduleRequest 0 none with
  | error error => exact hopened.verdict (Nat.zero_le _) nofun nofun
  | ok request =>
    refine passes_batchOr hopened (Nat.zero_le _) ⟨_, _, hmake⟩ (Judged.ignore (fun _ => rfl) fun now _ => ?_)
    exact passes_attempts _ _ (Nat.zero_add _) hopened ⟨_, _, hmake⟩ none

/-- Over every behaviour of the scheduler and the upstream, a live call passes the audit: each permit is
settled once before the next one is sought or the call returns, aborted only without a connection,
and each further request follows an attempt that may be repeated. It sends at most `max_retries + 1`. -/
theorem live_retries_are_bounded_and_safe {call : DirectCall} {events : List (Event Op.Reply)}
    {result : Except ProxyError ScheduledDirect}
    (hrun : Runs (fun _ _ => True) call.scheduledDirectResponse events result) :
    (sends events).length ≤ call.scheduler.policy.maxRetries + 1 ∧
      ∃ account, events.foldlM (Account.audit call.headers) .opened = some account ∧ account.Settled result := by
  obtain ⟨account, hfold, hverdict⟩ := Judged.run hrun (passes_scheduledDirectResponse)
  refine ⟨?_, account, hfold, hverdict.settled⟩
  have houtcomes : account.outcomes = sends events := Account.outcomes_of_audit hfold
  exact houtcomes ▸ hverdict.bounded

section Witness

/-- A call for one prompt, under a scheduling policy without limits. -/
noncomputable def sampleCall (mode : Mode) (headers : HeaderMap) : DirectCall where
  router :=
    { crates := sampleCrates, mode, provider := "https://api.openai.com/v1"
      policy := { maxDirectCostUsd := 0.0, maxDirectPremiumUsd := 0.0, models := fun _ => none } }
  scheduler := Inner.plain { enabled := true }
  parseHttpDate _ := none
  headers
  body := .object [("input", .string "hi"), ("model", .string "gpt-5")]
  requestedMode := mode
  enabled := rfl
  validated := by decide
  builtIn := rfl

private noncomputable def refused : DirectCall := sampleCall .direct [("authorization", ⟨utf8 "Bearer a"⟩)]

private noncomputable def refusedRequest (attempt : Nat) : ScheduleRequest where
  provider := "https://api.openai.com/v1"
  authScope := (UpstreamAuth.mk "Bearer a" none none).fingerprint refused.router.crates
  model := "gpt-5"
  sessionId := none
  inputTokens := 34
  outputTokens := 0
  interaction := .userPrompt
  asyncAlias := false
  cacheReadHit := none
  retryAttempt := attempt
  upstreamRetryAfter := none
  allowBatchFallback := false
  body := some refused.body

private noncomputable def ticket (id : Nat) : SchedulePermit :=
  Pending.permit id 0 ⟨refusedRequest 0, 0, 34, 16384, 0, 0⟩

/-- The first request is refused, the second one breaks down. -/
private noncomputable def breakdown : List (Event Op.Reply) :=
  [⟨.now, (0 : Nat)⟩, ⟨.now, (0 : Nat)⟩,
    ⟨.acquire (refused.scheduler.policy.maxWait false) (refusedRequest 0), some (.ok (.dispatch (ticket 0)))⟩,
    ⟨.send refused.headers refused.body, .ok ⟨⟨429, "429 Too Many Requests"⟩, []⟩⟩, ⟨.systemTime, (0 : Nat)⟩,
    ⟨.now, (0 : Nat)⟩, ⟨.complete (ticket 0) (some 0) (some 0) none, ()⟩, ⟨.now, (0 : Nat)⟩,
    ⟨.acquire (refused.scheduler.policy.maxWait false) (refusedRequest 1), some (.ok (.dispatch (ticket 1)))⟩,
    ⟨.send refused.headers refused.body, .error ⟨false, "connection reset"⟩⟩,
    ⟨.complete (ticket 1) none none none, ()⟩]

private theorem answers (op : Op) {f : op.Reply → Live (Except ProxyError ScheduledDirect)}
    {events : List (Event Op.Reply)} {result : Except ProxyError ScheduledDirect} (reply : op.Reply)
    (rest : Runs (fun _ _ => True) (f reply) events result) :
    Runs (fun _ _ => True) (Prog.perform op >>= f) (⟨op, reply⟩ :: events) result := Runs.perform op reply trivial rest

private theorem breakdown_runs : Runs (fun _ _ => True) refused.scheduledDirectResponse breakdown
    (.error (.transport ⟨false, "connection reset"⟩)) := by
  have hmake (attempt : Nat) : refused.makeScheduleRequest attempt none = .ok (refusedRequest attempt) := rfl
  unfold scheduledDirectResponse breakdown
  rw [hmake]
  refine answers Op.now (0 : Nat) (answers Op.now (0 : Nat) ?_)
  rw [if_neg (by decide), hmake]
  refine answers (Op.acquire _ _) (some (.ok (.dispatch (ticket 0)))) ?_
  refine answers (Op.send _ _) (Except.ok ⟨⟨429, "429 Too Many Requests"⟩, []⟩) ?_
  refine answers Op.systemTime (0 : Nat) (answers Op.now (0 : Nat) (answers (Op.complete _ _ _ _) () ?_))
  have hsecond : refused.makeScheduleRequest (0 + 1) (retryAfter refused.parseHttpDate 0 []) =
      .ok (refusedRequest 1) := hmake 1
  refine answers Op.now (0 : Nat) ?_
  rw [if_neg (by decide)]
  dsimp only
  rw [hsecond]
  refine answers (Op.acquire _ _) (some (.ok (.dispatch (ticket 1)))) ?_
  refine answers (Op.send _ _) (Except.error ⟨false, "connection reset"⟩) ?_
  exact answers (Op.complete _ _ _ _) () (.ret _)

/-- Two requests were sent and both permits completed. -/
theorem live_retries_after_refusal : (sends breakdown).length ≤ 3 ∧
    ∃ account, breakdown.foldlM (Account.audit refused.headers) .opened = some account ∧
      account.Settled (.error (.transport ⟨false, "connection reset"⟩)) :=
  live_retries_are_bounded_and_safe breakdown_runs

end Witness
end DirectCall
end Kaiion.Proxy
