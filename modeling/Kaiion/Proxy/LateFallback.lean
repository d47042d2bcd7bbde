import Kaiion.Foundation.Interleaving
import Kaiion.Proxy.LiveRetries
import Kaiion.Scheduling.Acquire

/-! Falling back to Batch after live attempts, with the scheduler as the call and all other requests leave it. -/
namespace Kaiion.Proxy
open Durable Foundation Scheduling Prog

/-- The upstream certainly did no work for this request. -/
def notAccepted : Outcome → Bool
  | .error error => error.isConnect
  | .ok upstream => upstream.status.code = tooManyRequests

/-- A live call in progress: the scheduler with its tasks, and what became of the call's upstream requests. -/
structure Scene where
  sys : Sys
  sent : List Outcome

/-- The upstream may have done work for the call. -/
def Scene.late (scene : Scene) : Bool := scene.sent.any (fun outcome => !notAccepted outcome)

namespace DirectCall
variable {call : DirectCall}

/-- Other requests come and go, and time passes. -/
def Others (call : DirectCall) (s t : Scene) : Prop := Meanwhile call.scheduler s.sys t.sys ∧ t.sent = s.sent

/-- What an operation replies and leaves behind. Its looks at the scheduler are as `look` allows. -/
def Answers (call : DirectCall) (look : Scene → ScheduleRequest → Look) :
    (op : Op) → Scene → op.Reply → Scene → Prop
  | .now, s, reply, t => reply = s.sys.clock ∧ t = s
  | .systemTime, s, _, t | .bytes _, s, _, t => t = s
  | .preview request, s, reply, t =>
    Previews call.scheduler (look s request) request s.sys reply t.sys ∧ t.sent = s.sent
  | .acquire remaining request, s, reply, t =>
    Acquires call.scheduler (look s (prepare call.scheduler request)) remaining request s.sys reply t.sys ∧
      t.sent = s.sent
  | .send _ _, s, outcome, t => t = { s with sent := s.sent ++ [outcome] }
  | .complete permit inputTokens outputTokens cacheReadHit, s, _, t =>
    Completes call.scheduler permit inputTokens outputTokens cacheReadHit s.sys t.sys ∧ t.sent = s.sent
  | .abort permit, s, _, t => Aborts call.scheduler permit s.sys t.sys ∧ t.sent = s.sent

/-- Nothing is asked of the looks. -/
def anyLook : Scene → ScheduleRequest → Look := fun _ _ _ _ _ => True

/-- Once the upstream may have done work, no look finds Batch recommended. -/
def unrecommended (call : DirectCall) : Scene → ScheduleRequest → Look := fun scene request s enqueuedAt now =>
  scene.late = true → batchRecommendation call.scheduler request s enqueuedAt now = none

/-- The scheduler is in a state some run leads to, and the request of a call that has sent one can fit. -/
structure Sound (call : DirectCall) (scene : Scene) : Prop where
  run : Reached call.scheduler scene.sys
  fits : scene.sent ≠ [] → ∀ number delay request, call.makeScheduleRequest number delay = .ok request →
    (prepare call.scheduler request).excluded call.scheduler.policy = false

section Steps
variable {s t : Scene}

private theorem Sound.meanwhile (h : call.Sound s) (hsys : Meanwhile call.scheduler s.sys t.sys)
    (hsent : t.sent = s.sent) : call.Sound t :=
  ⟨h.run.leads hsys, hsent ▸ h.fits⟩

private theorem sent_of_late (h : s.late = true) : s.sent ≠ [] := by
  intro hnone
  simp [Scene.late, hnone] at h

/-- A warranted recommendation comes before the upstream may have done work. -/
private theorem Sound.early (h : call.Sound s) {number : Nat} {delay retryAfter : Option Nat}
    {request : ScheduleRequest} {reason : String} (hmade : call.makeScheduleRequest number delay = .ok request)
    (hwarranted : Warranted call.scheduler (call.unrecommended s (prepare call.scheduler request))
      (prepare call.scheduler request) (.recommendBatch reason retryAfter)) : s.late = false := by
  by_contra hlate
  rw [Bool.not_eq_false] at hlate
  rcases hwarranted.recommendation reason retryAfter rfl with hexcluded | ⟨state, enqueuedAt, now, hlook, hfound⟩
  · rw [h.fits (sent_of_late hlate) number delay request hmade] at hexcluded
    cases hexcluded
  · rw [hlook hlate] at hfound
    cases hfound

/-- Among the steps of other requests the program returns Batch only while the upstream has done no work. -/
abbrev Spares (call : DirectCall) (program : Live (Except ProxyError ScheduledDirect)) (s : Scene) : Prop :=
  Safe call.Others (fun _ _ => True) (call.Answers call.unrecommended) program
    (fun result t => ∀ reason, result = .ok (.batch reason) → t.late = false) s

/-- The next attempt, if there is one, spares the upstream too. -/
def Resumes (call : DirectCall) : Again → Prop
  | none => True
  | some again => ∀ request, (∃ n delay, call.makeScheduleRequest n delay = .ok request) → ∀ delay u,
      call.Sound u → call.Spares (again request delay) u

end Steps

section Counterexample

/-- Two requests a minute. -/
private def twoAMinute : Inner := Inner.plain
  { enabled := true, queueCoalesceMs := 0, limits := [{ windowSeconds := 60, maxRequests := some 2 }] }

/-- A user prompt in a session, in auto mode with an idempotency key. -/
private noncomputable def prompted : DirectCall where
  router := (sampleCall .auto []).router
  scheduler := twoAMinute
  parseHttpDate _ := none
  headers :=
    [("authorization", ⟨utf8 "Bearer a"⟩), ("idempotency-key", ⟨utf8 "k1"⟩), ("x-kaiion-session-id", ⟨utf8 "s1"⟩)]
  body := .object [("input", .string "hi"), ("model", .string "gpt-5")]
  requestedMode := .auto
  enabled := rfl
  validated := by decide
  builtIn := rfl

private def prompt (attempt : Nat) : ScheduleRequest where
  provider := "https://api.openai.com/v1"
  authScope := "b705347cb1e5eb2e49692dcab1e4bbdd499d9980aed4e6b1ea3aae7408335c10"
  model := "gpt-5"
  sessionId := some "92003600e7769a90fe231379820f96cf64c91e2c61a4703bb8456932afebdac3"
  inputTokens := 34
  outputTokens := 0
  interaction := .userPrompt
  asyncAlias := false
  cacheReadHit := none
  retryAttempt := attempt
  upstreamRetryAfter := none
  allowBatchFallback := true
  body := some (.object [("input", .string "hi"), ("model", .string "gpt-5")])

/-- The permit of a prompt that is sent as soon as it is queued. -/
private def admission (id now : Nat) : SchedulePermit :=
  Pending.permit id now ⟨prepare twoAMinute (prompt 0), now, 34, 16384, 0, id⟩

/-- An earlier prompt of the session was answered without a cache hit, a second ago. -/
private def missed : Sys := (Scheduling.scheduler twoAMinute).replay .initial
  [.enqueue (prompt 0) 0, .read 0, .pass 0 0 undisturbed, .receive 0 (.dispatch (admission 0 0)),
    .settle (.complete (admission 0 0) 0 (some 34) (some 10) (some false)),
    .finish (.complete (admission 0 0) 0 (some 34) (some 10) (some false)) undisturbed, .tick (fromSecs 1)]

/-- The first attempt of the call takes the second place in the minute. -/
private def sentOnce : Sys := (Scheduling.scheduler twoAMinute).replay missed
  [.enqueue (prompt 0) (fromSecs 1), .read 1, .pass 1 (fromSecs 1) undisturbed,
    .receive 1 (.dispatch (admission 1 (fromSecs 1)))]

/-- It is refused, or fails after it was accepted. -/
private def answer (refused : Bool) : Upstream :=
  ⟨if refused then ⟨429, "429 Too Many Requests"⟩ else ⟨500, "500 Internal Server Error"⟩, []⟩

/-- What the call reports to the scheduler: a refused request used nothing. -/
private def usage (refused : Bool) : Option Nat := if refused then some 0 else none

private def completion (refused : Bool) : Settlement :=
  .complete (admission 1 (fromSecs 1)) (fromSecs 1) (usage refused) (usage refused) none

private def answeredOnce (refused : Bool) : Sys := (Scheduling.scheduler twoAMinute).replay sentOnce
  [.settle (completion refused), .finish (completion refused) undisturbed]

/-- The second attempt finds both places taken, and waits until its time is up. -/
private def requeued (refused : Bool) : Sys :=
  (answeredOnce refused).next twoAMinute (.enqueue (prompt 1) (answeredOnce refused).clock)

private def waited (refused : Bool) : Sys := (Scheduling.scheduler twoAMinute).replay (requeued refused)
  [.read 2, .pass 2 (fromSecs 1) undisturbed, .poll 2 (fromSecs 1) (fromSecs 30),
    .check 2 (fromSecs 1) (fromSecs 30), .arm 2 (fromSecs 1) (fromSecs 30), .tick (fromSecs 30)]

private theorem takes (op : Op) {f : op.Reply → Live (Except ProxyError ScheduledDirect)} {s t u : Scene}
    {result : Except ProxyError ScheduledDirect} (reply : op.Reply) (ok : prompted.Answers anyLook op s reply t)
    (rest : Executes prompted.Others (prompted.Answers anyLook) (f reply) t result u) :
    Executes prompted.Others (prompted.Answers anyLook) (Prog.perform op >>= f) s result u :=
  .call reply ⟨.refl, rfl⟩ ok rest

end Counterexample

end DirectCall
end Kaiion.Proxy
