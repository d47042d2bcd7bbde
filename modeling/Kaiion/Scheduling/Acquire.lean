import Kaiion.Scheduling.Refusal

/-! The methods a caller awaits, among the steps of all other tasks: where each can return, and with what. -/
namespace Kaiion.Scheduling
open Foundation

/-- What the caller sees when it looks whether its request should go to Batch: the state behind the
lock, the instant since which it waits, and the clock. -/
abbrev Look := State → Nat → Nat → Prop

/-- Some run leads here. -/
abbrev Reached (inner : Inner) : Sys → Prop := (scheduler inner).Run (fun _ _ => True)

/-- Tasks work and time passes. -/
abbrev Meanwhile (inner : Inner) : Sys → Sys → Prop := (scheduler inner).Leads (fun _ _ => True)

/-- `preview`, once it has the lock. -/
def Sys.preview (inner : Inner) (sys : Sys) (request : ScheduleRequest) : Option String :=
  if !inner.policy.enabled || !request.allowBatchFallback then none
  else batchRecommendation inner request sys.state sys.clock sys.clock

/-- From `a` on the caller waits for the lock, and previews at `b`. -/
structure Previews (inner : Inner) (look : Look) (request : ScheduleRequest) (a : Sys) (reason : Option String)
    (b : Sys) : Prop where
  waits : Meanwhile inner a b
  looks : look b.state b.clock b.clock
  finds : b.preview inner request = reason

/-- The first half of `acquire`: nothing is recommended, the caller sleeps as long as the upstream asked,
and gets the lock at `b`. -/
structure Approaches (inner : Inner) (look : Look) (request : ScheduleRequest) (a b : Sys) : Prop where
  previewed : ∃ m, Previews inner look (prepare inner request) a none m ∧ Meanwhile inner m b ∧
    m.clock + request.upstreamRetryAfter.getD 0 ≤ b.clock
  enabled : b.Enabled inner (.enqueue request a.clock)

/-- Where call `c` returns once it is queued; `limit` is when its caller drops it. -/
inductive Returns (inner : Inner) (look : Look) (c limit : Nat) (a : Sys) : Option ScheduleOutcome → Sys → Prop where
  | received {m : Sys} {outcome : ScheduleOutcome} (waits : Meanwhile inner a m)
      (enabled : m.Enabled inner (.receive c outcome)) :
      Returns inner look c limit a (some outcome) (m.next inner (.receive c outcome))
  | hopeless {m k : Sys} {outcome : ScheduleOutcome} (now : Nat) (closed : Nat → Closings) (waits : Meanwhile inner a m)
      (enabled : m.Enabled inner (.pass c now closed))
      (finds : hopeless inner now (m.calls c).started (m.calls c).request
        ((Section.pass (m.calls c).id (m.calls c).request).opened inner now m.state) = some outcome)
      (closes : Meanwhile inner (m.next inner (.pass c now closed)) k)
      (closing : k.Enabled inner (.close c (some outcome))) :
      Returns inner look c limit a (some outcome) (k.next inner (.close c (some outcome)))
  | expired {m k : Sys} {outcome : ScheduleOutcome} (waits : Meanwhile inner a m)
      (enabled : m.Enabled inner (.expire c)) (looks : look m.state (m.calls c).started m.clock)
      (finds : outcome = expiry inner m.clock (m.calls c).started (m.calls c).request m.state)
      (closes : Meanwhile inner (m.next inner (.expire c)) k) (closing : k.Enabled inner (.close c (some outcome))) :
      Returns inner look c limit a (some outcome) (k.next inner (.close c (some outcome)))
  | dropped {m k : Sys} (waits : Meanwhile inner a m) (past : limit ≤ m.clock) (enabled : m.Enabled inner (.cancel c))
      (closes : Meanwhile inner (m.next inner (.cancel c)) k) (closing : k.Enabled inner (.close c none)) :
      Returns inner look c limit a none (k.next inner (.close c none))

/-- Where `acquire` returns under a timeout of `remaining`; no outcome means that the time was up. -/
inductive Acquires (inner : Inner) (look : Look) (remaining : Nat) (request : ScheduleRequest) (a : Sys) :
    Option (Except String ScheduleOutcome) → Sys → Prop where
  | invalid (blank : named request = false) : Acquires inner look remaining request a
      (some (.error "provider, model, and auth scope must be non-empty")) a
  | recommended {b : Sys} {reason : String} (names : named request = true)
      (previews : Previews inner look (prepare inner request) a (some reason) b) :
      Acquires inner look remaining request a (some (.ok (.recommendBatch reason none))) b
  | exhausted {b : Sys} (names : named request = true) (previews : Previews inner look (prepare inner request) a none b)
      (past : inner.policy.maxRetries < request.retryAttempt) :
      Acquires inner look remaining request a
        (some (.ok (.retryExhausted "max_retries_exceeded" request.upstreamRetryAfter))) b
  | capped {b : Sys} {wait : Nat} (names : named request = true)
      (previews : Previews inner look (prepare inner request) a none b)
      (within : request.retryAttempt ≤ inner.policy.maxRetries) (asked : request.upstreamRetryAfter = some wait)
      (past : inner.policy.maxWait request.asyncAlias < wait) :
      Acquires inner look remaining request a (some (.ok (.retryExhausted "retry_after_exceeds_wait_cap" (some wait)))) b
  | full {b : Sys} (approaches : Approaches inner look request a b)
      (full : queueFull inner (prepare inner request) (pruneEvents inner.policy b.clock b.state) = true)
      (looks : look (pruneEvents inner.policy b.clock b.state) b.clock b.clock) :
      Acquires inner look remaining request a
        (some (.ok (capacityOutcome inner (prepare inner request) "queue_full" none b.clock b.clock
          (pruneEvents inner.policy b.clock b.state)))) (b.next inner (.enqueue request a.clock))
  | queued {m b : Sys} {outcome : Option ScheduleOutcome} (approaches : Approaches inner look request a m)
      (room : queueFull inner (prepare inner request) (pruneEvents inner.policy m.clock m.state) = false)
      (returns : Returns inner look m.issued (a.clock + remaining) (m.next inner (.enqueue request a.clock)) outcome b) :
      Acquires inner look remaining request a (outcome.map .ok) b
  | dropped {b : Sys} (names : named request = true) (waits : Meanwhile inner a b) (past : a.clock + remaining ≤ b.clock) :
      Acquires inner look remaining request a none b

/-- A completion or an abort from the moment it is called until its section has run. -/
inductive Settles (inner : Inner) (settlement : Settlement) (a : Sys) : Sys → Prop where
  | finished {m : Sys} (closed : Nat → Closings) (enabled : a.Enabled inner (.settle settlement))
      (waits : Meanwhile inner (a.next inner (.settle settlement)) m)
      (finishing : m.Enabled inner (.finish settlement closed)) :
      Settles inner settlement a (m.next inner (.finish settlement closed))

/-- `complete`. -/
def Completes (inner : Inner) (permit : SchedulePermit) (inputTokens outputTokens : Option Nat)
    (cacheReadHit : Option Bool) (a b : Sys) : Prop :=
  Settles inner (.complete permit a.clock inputTokens outputTokens cacheReadHit) a b

/-- `abort`; a permit without a reservation has nothing to give back. -/
def Aborts (inner : Inner) (permit : SchedulePermit) (a b : Sys) : Prop :=
  match permit.reservationId with
  | some id => Settles inner (.abort permit id) a b
  | none => b = a

variable {inner : Inner} {look : Look} {request : ScheduleRequest} {a b : Sys}

/-- One more step. -/
private theorem Meanwhile.next (h : Meanwhile inner a b) {action : Action} (enabled : b.Enabled inner action) :
    Meanwhile inner a (b.next inner action) :=
  Machine.Leads.step action h enabled trivial

private theorem meanwhile_next {action : Action} (enabled : a.Enabled inner action)
    (h : Meanwhile inner (a.next inner action) b) : Meanwhile inner a b :=
  Machine.Leads.trans (Machine.Leads.step action .refl enabled trivial) h

private theorem Returns.meanwhile {c limit : Nat} {outcome : Option ScheduleOutcome}
    (h : Returns inner look c limit a outcome b) : Meanwhile inner a b := by
  cases h with
  | received waits enabled => exact Meanwhile.next waits enabled
  | hopeless now closed waits enabled _ closes closing =>
    exact waits.trans (meanwhile_next enabled (Meanwhile.next closes closing))
  | expired waits enabled _ _ closes closing =>
    exact waits.trans (meanwhile_next enabled (Meanwhile.next closes closing))
  | dropped waits _ enabled closes closing => exact waits.trans (meanwhile_next enabled (Meanwhile.next closes closing))

private theorem Approaches.meanwhile (h : Approaches inner look request a b) : Meanwhile inner a b := by
  obtain ⟨m, hpreviews, hsleeps, -⟩ := h.previewed
  exact hpreviews.waits.trans hsleeps

theorem Acquires.meanwhile {remaining : Nat} {reply : Option (Except String ScheduleOutcome)}
    (h : Acquires inner look remaining request a reply b) : Meanwhile inner a b := by
  cases h with
  | invalid => exact .refl
  | recommended _ previews | exhausted _ previews | capped _ previews => exact previews.waits
  | full approaches => exact Meanwhile.next approaches.meanwhile approaches.enabled
  | queued approaches _ returns => exact approaches.meanwhile.trans (meanwhile_next approaches.enabled returns.meanwhile)
  | dropped _ waits => exact waits

theorem Settles.meanwhile {settlement : Settlement} (h : Settles inner settlement a b) : Meanwhile inner a b := by
  cases h with
  | finished closed enabled waits finishing => exact meanwhile_next enabled (Meanwhile.next waits finishing)

theorem Aborts.meanwhile {permit : SchedulePermit} (h : Aborts inner permit a b) : Meanwhile inner a b := by
  unfold Aborts at h
  split at h
  · exact h.meanwhile
  · exact h ▸ .refl

/-- A queued call keeps its request. -/
private theorem Meanwhile.keeps (h : Meanwhile inner a b) {c : Nat} (hissued : c < a.issued) :
    (b.calls c).request = (a.calls c).request ∧ c < b.issued := by
  induction h with
  | refl => exact ⟨rfl, hissued⟩
  | step action _ enabled _ ih =>
    exact ⟨(Sys.next_request ih.2 enabled).trans ih.1, Nat.lt_of_lt_of_le ih.2 (Sys.issued_le inner _ action)⟩

/-- What a caller can conclude from an outcome: a permit means that the request can fit, a recommendation that
it cannot, unless the caller looked and found one. -/
structure Warranted (inner : Inner) (look : Look) (request : ScheduleRequest) (outcome : ScheduleOutcome) : Prop where
  permit : outcome.grants = true → request.excluded inner.policy = false
  recommendation : ∀ reason retryAfter, outcome = .recommendBatch reason retryAfter →
    request.excluded inner.policy = true ∨
      ∃ s enqueuedAt now, look s enqueuedAt now ∧ batchRecommendation inner request s enqueuedAt now = some reason

/-- A call that found room is queued under the next number. -/
private theorem queued_call (started : Nat)
    (room : queueFull inner (prepare inner request) (pruneEvents inner.policy a.clock a.state) = false) :
    a.issued < (a.next inner (.enqueue request started)).issued ∧
      ((a.next inner (.enqueue request started)).calls a.issued).request = prepare inner request := by
  change a.issued < (a.queue inner (prepare inner request) started).issued ∧
    ((a.queue inner (prepare inner request) started).calls a.issued).request = prepare inner request
  rw [Sys.queue_room started room]
  exact ⟨Nat.lt_succ_self _, congrArg Call.request (if_pos rfl)⟩

/-- Every look is as wanted, or finds a recommendation. -/
def Look.OrFound (wanted : Look) (inner : Inner) (request : ScheduleRequest) : Prop := ∀ s enqueuedAt now,
  wanted s enqueuedAt now ∨ ∃ reason, batchRecommendation inner request s enqueuedAt now = some reason

section Wanted
variable {wanted : Look} {remaining : Nat}

private theorem preview_eq (henabled : inner.policy.enabled = true) :
    a.preview inner request = batchRecommendation inner request a.state a.clock a.clock := by
  unfold Sys.preview
  rw [henabled]
  split
  next hallow =>
    have hallow : request.allowBatchFallback = false := by simpa using hallow
    simp [batchRecommendation, hallow]
  · rfl

theorem allowed_of_recommended {reason : String} {enqueuedAt now : Nat} {s : State}
    (h : batchRecommendation inner request s enqueuedAt now = some reason) : request.allowBatchFallback = true := by
  by_contra hallow
  rw [Bool.not_eq_true] at hallow
  simp [batchRecommendation, hallow] at h

/-- A preview that recommends nothing is as wanted. -/
theorem Previews.heeds (hlook : wanted.OrFound inner request) (henabled : inner.policy.enabled = true)
    (h : Previews inner look request a none b) : Previews inner wanted request a none b := by
  refine ⟨h.waits, ?_, h.finds⟩
  have hnone := (preview_eq henabled).symm.trans h.finds
  rcases hlook b.state b.clock b.clock with hwanted | ⟨reason, hfound⟩
  · exact hwanted
  · rw [hnone] at hfound
    cases hfound

private theorem Approaches.heeds (hlook : wanted.OrFound inner (prepare inner request))
    (h : Approaches inner look request a b) : Approaches inner wanted request a b := by
  obtain ⟨m, hpreviews, hrest⟩ := h.previewed
  exact ⟨⟨m, hpreviews.heeds hlook h.enabled.1, hrest⟩, h.enabled⟩

/-- A call that recommends Batch because of a look that is not as wanted. -/
structure Unwanted (wanted : Look) (request : ScheduleRequest) (outcome : Option ScheduleOutcome) : Prop where
  recommends : ∃ reason retryAfter, outcome = some (.recommendBatch reason retryAfter)
  allowed : request.allowBatchFallback = true
  look : ∃ s enqueuedAt now, ¬ wanted s enqueuedAt now

private theorem unwanted_of_look (hlook : wanted.OrFound inner request) {reason : String} {retryAfter : Option Nat}
    {now enqueuedAt : Nat} {s : State} (h : ¬ wanted s enqueuedAt now) :
    Unwanted wanted request (some (capacityOutcome inner request reason retryAfter now enqueuedAt s)) := by
  obtain ⟨batchReason, hfound⟩ := (hlook s enqueuedAt now).resolve_left h
  refine ⟨⟨batchReason, retryAfter, ?_⟩, allowed_of_recommended hfound, s, enqueuedAt, now, h⟩
  rw [capacityOutcome, hfound]

private theorem Returns.heeds (hlook : wanted.OrFound inner request) {c limit : Nat} {outcome : Option ScheduleOutcome}
    (hissued : c < a.issued) (hrequest : (a.calls c).request = request)
    (h : Returns inner look c limit a outcome b) :
    Returns inner wanted c limit a outcome b ∨ Unwanted wanted request outcome := by
  cases h with
  | received waits enabled => exact .inl (.received waits enabled)
  | hopeless now closed waits enabled finds closes closing =>
    exact .inl (.hopeless now closed waits enabled finds closes closing)
  | dropped waits past enabled closes closing => exact .inl (.dropped waits past enabled closes closing)
  | @expired m k outcome waits enabled looks finds closes closing =>
    by_cases hwanted : wanted m.state (m.calls c).started m.clock
    · exact .inl (.expired waits enabled hwanted finds closes closing)
    · right
      rw [(Meanwhile.keeps waits hissued).1, hrequest] at finds
      rw [finds]
      exact unwanted_of_look hlook hwanted

/-- Where `acquire` ends up if its looks are not restricted: all are as wanted, or it recommends Batch. -/
theorem Acquires.heeds (hlook : wanted.OrFound inner (prepare inner request)) (henabled : inner.policy.enabled = true)
    {reply : Option (Except String ScheduleOutcome)} (h : Acquires inner look remaining request a reply b) :
    Acquires inner wanted remaining request a reply b ∨
      ∃ outcome, reply = some (.ok outcome) ∧ Unwanted wanted (prepare inner request) (some outcome) := by
  cases h with
  | invalid blank => exact .inl (.invalid blank)
  | exhausted names previews past => exact .inl (.exhausted names (previews.heeds hlook henabled) past)
  | capped names previews within asked past => exact .inl (.capped names (previews.heeds hlook henabled) within asked past)
  | dropped names waits past => exact .inl (.dropped names waits past)
  | @recommended b reason names previews =>
    by_cases hwanted : wanted b.state b.clock b.clock
    · exact .inl (.recommended names ⟨previews.waits, hwanted, previews.finds⟩)
    · have hfound := (preview_eq henabled).symm.trans previews.finds
      exact .inr ⟨_, rfl, ⟨_, _, rfl⟩, allowed_of_recommended hfound, _, _, _, hwanted⟩
  | @full b approaches full looks =>
    by_cases hwanted : wanted (pruneEvents inner.policy b.clock b.state) b.clock b.clock
    · exact .inl (.full (approaches.heeds hlook) full hwanted)
    · exact .inr ⟨_, rfl, unwanted_of_look hlook hwanted⟩
  | @queued m b outcome approaches room returns =>
    obtain ⟨hissued, hrequest⟩ := queued_call a.clock room
    rcases returns.heeds hlook hissued hrequest with hreturns | hunwanted
    · exact .inl (.queued (approaches.heeds hlook) room hreturns)
    · obtain ⟨reason, retryAfter, rfl⟩ := hunwanted.recommends
      exact .inr ⟨_, rfl, hunwanted⟩

end Wanted
end Kaiion.Scheduling
