import Kaiion.Foundation.Machine
import Kaiion.Scheduling.Critical
import Kaiion.Scheduling.Readiness
import Mathlib.Data.List.TakeWhile

/-! Rolling quotas over whole runs of critical sections. Sections run at non-decreasing true times
with clock readings that may lag behind; what pruning takes out of the ledger is kept aside here. -/
namespace Kaiion.Scheduling
open Foundation

variable {inner : Inner} {now : Nat} {s t : State}

/-- The scheduler's state at a true time, with the reservations pruning has dropped: together with
the events of the state these are all that were made and not aborted. -/
structure Ledger where
  clock : Nat
  state : State
  expired : List UsageEvent

/-- A critical section that runs `elapsed` after the one before it and reads the clock as `now`. -/
structure Turn where
  elapsed : Nat
  now : Nat
  closed : Nat → Closings
  work : Section

/-- The events a section prunes. -/
def Section.pruned (inner : Inner) (now : Nat) (s : State) (work : Section) : List UsageEvent :=
  if work.prunes then (work.edit inner now s).events.takeWhile (fun event =>
    maxWindow inner.policy ≤ now - event.atTime) else []

/-- An abort takes back the reservation wherever it is. -/
def Section.forgets (work : Section) (events : List UsageEvent) : List UsageEvent :=
  match work with
  | .abort id => events.filter (fun event => event.id ≠ id)
  | _ => events

def Ledger.next (inner : Inner) (ledger : Ledger) (turn : Turn) : Ledger :=
  { clock := ledger.clock + turn.elapsed
    state := (turn.work.run inner turn.closed turn.now ledger.state).state
    expired := turn.work.forgets ledger.expired ++ turn.work.pruned inner turn.now ledger.state }

/-- A reading is never ahead of the true time, and only an enabled scheduler queues requests. -/
def Ledger.Ready (inner : Inner) (ledger : Ledger) (turn : Turn) : Prop :=
  turn.now ≤ ledger.clock + turn.elapsed ∧
    match turn.work with
    | .enqueue _ _ => inner.policy.enabled = true
    | _ => True

instance (inner : Inner) (ledger : Ledger) : DecidablePred (ledger.Ready inner)
  | ⟨_, _, _, .enqueue _ _⟩ => inferInstanceAs (Decidable (_ ∧ _ = _))
  | ⟨_, _, _, .pass _ _⟩ | ⟨_, _, _, .expire _⟩ | ⟨_, _, _, .complete _ _ _ _⟩ | ⟨_, _, _, .abort _⟩
  | ⟨_, _, _, .dropLease _⟩ | ⟨_, _, _, .dropPending _⟩ => inferInstanceAs (Decidable (_ ∧ True))

/-- The critical sections of one scheduler, in lock order. -/
def ledgers (inner : Inner) : Machine Ledger Turn :=
  { initial := { clock := 0, state := .initial, expired := [] }
    enabled := Ledger.Ready inner
    next := Ledger.next inner }

instance (inner : Inner) (ledger : Ledger) (turn : Turn) : Decidable ((ledgers inner).enabled ledger turn) :=
  inferInstanceAs (Decidable (ledger.Ready inner turn))

/-- The calls of `dispatch_ready` that the loop of a section makes. -/
def loopCalls (inner : Inner) (closed : Nat → Closings) (now : Nat) : Nat → State → List (State × Closings)
  | 0, _ => []
  | fuel + 1, s =>
    let pass := dispatchReady inner (closed fuel) now s
    (s, closed fuel) ::
      (if pass.due.any (fun due => due ≤ now) then loopCalls inner closed now fuel pass.state else [])

/-- The states in which a section calls `dispatch_ready`, in order. -/
def Section.calls (inner : Inner) (closed : Nat → Closings) (now : Nat) (s : State) (work : Section) :
    List (State × Closings) :=
  let opened := work.opened inner now s
  let loop := loopCalls inner closed now (opened.pending.entries.length + 1) opened
  match work with
  | .enqueue _ _ | .expire _ => []
  | .pass _ request => if (request.fit inner opened now).impossible then [] else [(opened, closed 0)]
  | .dropLease id => if (s.active.lookup id).isSome then loop else []
  | .complete _ _ _ _ | .abort _ | .dropPending _ => loop

private theorem loopCalls_sent (inner : Inner) (closed : Nat → Closings) (now fuel : Nat) (s : State) :
    (dispatchLoop inner closed now fuel s).sent = (loopCalls inner closed now fuel s).flatMap
      (fun call => (dispatchReady inner call.2 now call.1).sent) := by
  induction fuel generalizing s with
  | zero => rfl
  | succ fuel ih =>
    unfold dispatchLoop loopCalls
    dsimp only
    split
    · rw [List.flatMap_cons, ← ih]
    · simp

/-- Everything a section sends is sent by one of these calls. -/
theorem Section.run_sent (inner : Inner) (closed : Nat → Closings) (now : Nat) (s : State) (work : Section) :
    (work.run inner closed now s).sent = (work.calls inner closed now s).flatMap
      (fun call => (dispatchReady inner call.2 now call.1).sent) := by
  cases work with
  | enqueue | expire => rfl
  | pass id request =>
    unfold Section.run Section.calls
    dsimp only
    split
    · rfl
    · simp
  | dropLease id =>
    unfold Section.run Section.calls
    dsimp only
    split
    · exact loopCalls_sent inner closed now _ _
    · rfl
  | complete | abort | dropPending => exact loopCalls_sent inner closed now _ _

private theorem loopCalls_moves {closed : Nat → Closings} {fuel : Nat} {call : State × Closings}
    (h : call ∈ loopCalls inner closed now fuel s) :
    ∃ sent returned, Moves inner (fun _ => True) now s sent returned call.1 := by
  induction fuel generalizing s with
  | zero => exact nomatch h
  | succ fuel ih =>
    unfold loopCalls at h
    dsimp only at h
    rcases List.mem_cons.mp h with rfl | h
    · exact ⟨[], [], .stop _⟩
    · split at h
      · obtain ⟨sent, returned, hmoves⟩ := ih h
        exact ⟨_, _, (dispatchReady_moves inner (fun _ _ => trivial) now s).trans hmoves⟩
      · exact nomatch h

/-- Every call finds a state that moves lead to from the opened one. -/
theorem Section.calls_moves {closed : Nat → Closings} {work : Section} {call : State × Closings}
    (h : call ∈ work.calls inner closed now s) :
    ∃ sent returned, Moves inner (fun _ => True) now (work.opened inner now s) sent returned call.1 := by
  cases work with
  | enqueue | expire => exact nomatch h
  | pass id request =>
    unfold Section.calls at h
    dsimp only at h
    split at h
    · exact nomatch h
    · cases List.mem_singleton.mp h
      exact ⟨[], [], .stop _⟩
  | dropLease id =>
    unfold Section.calls at h
    dsimp only at h
    split at h
    · exact loopCalls_moves h
    · exact nomatch h
  | complete | abort | dropPending => exact loopCalls_moves h

/-- What a ledger keeps. -/
structure Ledger.Sound (inner : Inner) (ledger : Ledger) : Prop where
  queued : ledger.state.pending.entries ≠ [] → inner.policy.enabled = true
  recorded : ∀ event ∈ ledger.state.events, event.atTime ≤ ledger.clock
  expired : ∀ event ∈ ledger.expired, event.atTime + maxWindow inner.policy ≤ ledger.clock

/-- A pruned event is out of every window for good. -/
private theorem pruned_expired {work : Section} {clock : Nat} (hnow : now ≤ clock)
    (hrecorded : ∀ event ∈ s.events, event.atTime ≤ clock) {event : UsageEvent}
    (h : event ∈ work.pruned inner now s) : event.atTime + maxWindow inner.policy ≤ clock := by
  unfold Section.pruned at h
  split at h
  · have hold := List.mem_takeWhile_imp h
    have hmem := (List.takeWhile_sublist _).subset h
    obtain ⟨old, hmem, -, htime⟩ := Section.edit_events hmem
    have hle := hrecorded old hmem
    rw [decide_eq_true_eq] at hold
    omega
  · exact nomatch h

/-- An opened section finds nothing recorded in the future. -/
theorem Ledger.Sound.opened_recorded {ledger : Ledger} {turn : Turn} (h : ledger.Sound inner) :
    ∀ event ∈ (turn.work.opened inner turn.now ledger.state).events,
      event.atTime ≤ ledger.clock + turn.elapsed := by
  intro event hevent
  obtain ⟨old, hold, -, htime⟩ := Section.edit_events (Section.opened_events hevent)
  have hle := h.recorded old hold
  omega

theorem Ledger.Sound.opened_queued {ledger : Ledger} (h : ledger.Sound inner) (turn : Turn)
    (hne : (turn.work.opened inner turn.now ledger.state).pending.entries ≠ []) :
    inner.policy.enabled = true :=
  h.queued fun hnil =>
    hne (List.sublist_nil.mp (hnil ▸ turn.work.opened_pending inner turn.now ledger.state))

theorem Ledger.Sound.next {ledger : Ledger} {turn : Turn} (h : ledger.Sound inner)
    (hready : ledger.Ready inner turn) : (ledger.next inner turn).Sound inner := by
  obtain ⟨hnow, hqueue⟩ := hready
  have hexpired : ∀ event ∈ (ledger.next inner turn).expired,
      event.atTime + maxWindow inner.policy ≤ ledger.clock + turn.elapsed := by
    intro event hevent
    rcases List.mem_append.mp hevent with hevent | hevent
    · have hold : event ∈ ledger.expired := by
        unfold Section.forgets at hevent
        split at hevent
        · exact (List.mem_filter.mp hevent).1
        · exact hevent
      exact Nat.le_trans (h.expired event hold) (Nat.le_add_right _ _)
    · exact pruned_expired hnow (fun old hold => Nat.le_trans (h.recorded old hold)
        (Nat.le_add_right _ _)) hevent
  cases hwork : turn.work.queues with
  | true =>
    obtain ⟨elapsed, now, closed, work⟩ := turn
    cases work with
    | enqueue sender request =>
      refine ⟨fun _ => hqueue, fun event hevent => ?_, hexpired⟩
      simp only [Ledger.next, Section.run, Pass.silent, enqueue_events] at hevent
      exact h.opened_recorded event hevent
    | _ => cases hwork
  | false =>
    have hmoves := @Section.run_moves inner turn.closed (fun _ => True) (fun _ _ _ => trivial) turn.now
      ledger.state turn.work hwork
    refine ⟨fun hne => h.opened_queued turn fun hnil => ?_, fun event hevent => ?_, hexpired⟩
    · exact hne (List.sublist_nil.mp (hnil ▸ hmoves.sublist))
    · rcases hmoves.events hevent with hevent | htime
      · exact h.opened_recorded event hevent
      · exact htime ▸ hnow

/-- Every ledger a run reaches is sound. -/
theorem Ledger.sound {ledger : Ledger} (h : (ledgers inner).Run (fun _ _ => True) ledger) :
    ledger.Sound inner :=
  h.invariant ⟨fun h => absurd rfl h, fun _ h => (nomatch h), fun _ h => (nomatch h)⟩
    (fun _ _ hsound hready _ => hsound.next hready)

/-- The provider, credential and model group of a limit. -/
def QuotaLimit.groups (limit : QuotaLimit) (provider authScope : String) (event : UsageEvent) : Bool :=
  event.provider = provider && (!limit.authScoped || event.authScope = authScope) &&
    limit.model.all (fun model => model = event.model)

/-- The reservations of the group that are recorded later than one window before `clock`. -/
def QuotaLimit.recent (limit : QuotaLimit) (provider authScope : String) (clock : Nat)
    (events : List UsageEvent) : List UsageEvent :=
  events.filter (fun event => clock < event.atTime + fromSecs limit.windowSeconds &&
    limit.groups provider authScope event)

/-- The reservations the scheduler adds up at a reading. -/
def QuotaLimit.seen (limit : QuotaLimit) (provider authScope : String) (now : Nat)
    (events : List UsageEvent) : List UsageEvent :=
  events.filter (fun event => now - event.atTime < fromSecs limit.windowSeconds &&
    limit.groups provider authScope event)

/-- The limit selects requests to this provider and model. -/
def QuotaLimit.selects (limit : QuotaLimit) (provider model : String) : Bool :=
  limit.provider.all (fun name => name = provider) && limit.model.all (fun name => name = model)

def inputSum (events : List UsageEvent) : Nat := (events.map UsageEvent.inputTokens).sum

def outputSum (events : List UsageEvent) : Nat := (events.map UsageEvent.outputTokens).sum

/-- This many reservations stay within the caps on requests. -/
structure QuotaLimit.HoldsRequests (limit : QuotaLimit) (count : Nat) : Prop where
  requests : ∀ cap, limit.maxRequests = some cap → count ≤ cap
  rps : ∀ rps, limit.maxRps = some rps → count ≤ rps * limit.windowSeconds

/-- The reservations stay within the caps on tokens. -/
structure QuotaLimit.HoldsTokens (limit : QuotaLimit) (events : List UsageEvent) : Prop where
  input : ∀ cap, limit.maxInputTokens = some cap → inputSum events ≤ cap
  output : ∀ cap, limit.maxOutputTokens = some cap → outputSum events ≤ cap
  total : ∀ cap, limit.maxTotalTokens = some cap → inputSum events + outputSum events ≤ cap

/-- Fewer reservations hold as well. -/
theorem QuotaLimit.HoldsTokens.sublist {limit : QuotaLimit} {events fewer : List UsageEvent}
    (h : limit.HoldsTokens events) (hsub : fewer.Sublist events) : limit.HoldsTokens fewer := by
  have hinput : inputSum fewer ≤ inputSum events := sum_le_of_sublist (hsub.map _)
  have houtput : outputSum fewer ≤ outputSum events := sum_le_of_sublist (hsub.map _)
  exact ⟨fun cap hcap => Nat.le_trans hinput (h.input cap hcap),
    fun cap hcap => Nat.le_trans houtput (h.output cap hcap),
    fun cap hcap => Nat.le_trans (Nat.add_le_add hinput houtput) (h.total cap hcap)⟩

/-- The token totals that are compared with a cap of the limit do not wrap. -/
structure QuotaLimit.Exact (limit : QuotaLimit) (events : List UsageEvent) : Prop where
  input : limit.maxInputTokens.isSome ∨ limit.maxTotalTokens.isSome → inputSum events < 2 ^ 64
  output : limit.maxOutputTokens.isSome ∨ limit.maxTotalTokens.isSome → outputSum events < 2 ^ 64

/-- The totals of these reservations do not wrap. -/
structure Unwrapped (events : List UsageEvent) : Prop where
  requests : events.length < 2 ^ 64
  input : inputSum events < 2 ^ 64
  output : outputSum events < 2 ^ 64

/-- The reservations and one more request stay within the rolling caps of the limit. -/
structure QuotaLimit.Admits (limit : QuotaLimit) (inputTokens outputTokens : Nat)
    (events : List UsageEvent) : Prop where
  requests : ∀ cap, limit.maxRequests = some cap → events.length + 1 ≤ cap
  rps : ∀ rps, limit.maxRps = some rps → events.length + 1 ≤ rps * limit.windowSeconds
  input : ∀ cap, limit.maxInputTokens = some cap → inputSum events + inputTokens ≤ cap
  output : ∀ cap, limit.maxOutputTokens = some cap → outputSum events + outputTokens ≤ cap
  total : ∀ cap, limit.maxTotalTokens = some cap →
    inputSum events + outputSum events + (inputTokens + outputTokens) ≤ cap

private theorem satAdd_le_iff {a b cap : Nat} (hcap : cap ≤ maxI64) : satAdd a b ≤ cap ↔ a + b ≤ cap := by
  unfold maxI64 at hcap
  unfold satAdd maxU64
  omega

private theorem satAdd_satAdd_le_iff {a b c d cap : Nat} (hcap : cap ≤ maxI64) :
    satAdd (satAdd a b) (satAdd c d) ≤ cap ↔ a + b + (c + d) ≤ cap := by
  unfold maxI64 at hcap
  unfold satAdd maxU64
  omega

/-- The request cap is the smaller one of the two, and saturating loses nothing. -/
private theorem requestCap_all_iff {limit : QuotaLimit} {reqs : Nat} (hreqs : reqs + 1 < 2 ^ 64) :
    (requestCap limit).all (fun cap => satAdd reqs 1 ≤ cap) = true ↔
      (∀ cap, limit.maxRequests = some cap → reqs + 1 ≤ cap) ∧
        ∀ rps, limit.maxRps = some rps → reqs + 1 ≤ rps * limit.windowSeconds := by
  have hsat : satAdd reqs 1 = reqs + 1 := by
    unfold satAdd maxU64
    omega
  have hmul : ∀ rps, reqs < satMul rps limit.windowSeconds ↔ reqs < rps * limit.windowSeconds := by
    intro rps
    unfold satMul maxU64
    omega
  rw [hsat]
  simp only [Nat.add_one_le_iff]
  unfold requestCap
  cases limit.maxRps with
  | none => cases limit.maxRequests <;> simp
  | some rps => cases limit.maxRequests <;> simp [hmul]

/-- The check of a valid limit is exact as long as no total wraps. -/
theorem fitsAfter_iff {limit : QuotaLimit} (hvalid : limit.Valid) {inputTokens outputTokens : Nat}
    {events : List UsageEvent} (hreqs : events.length + 1 < 2 ^ 64) (hinput : inputSum events < 2 ^ 64)
    (houtput : outputSum events < 2 ^ 64) :
    fitsAfter limit inputTokens outputTokens events = true ↔ limit.Admits inputTokens outputTokens events := by
  have hsumIn : sumU64 (events.map UsageEvent.inputTokens) = inputSum events := Nat.mod_eq_of_lt hinput
  have hsumOut : sumU64 (events.map UsageEvent.outputTokens) = outputSum events := Nat.mod_eq_of_lt houtput
  unfold fitsAfter
  rw [hsumIn, hsumOut]
  simp only [capFit, Bool.and_eq_true, requestCap_all_iff hreqs, Option.all_eq_true, decide_eq_true_eq]
  constructor
  · rintro ⟨⟨⟨⟨hrequests, hrps⟩, hin⟩, hout⟩, htotal⟩
    exact ⟨hrequests, hrps, fun cap hcap => (satAdd_le_iff (hvalid.inputTokens cap hcap)).mp (hin cap hcap),
      fun cap hcap => (satAdd_le_iff (hvalid.outputTokens cap hcap)).mp (hout cap hcap),
      fun cap hcap => (satAdd_satAdd_le_iff (hvalid.totalTokens cap hcap)).mp (htotal cap hcap)⟩
  · rintro ⟨hrequests, hrps, hin, hout, htotal⟩
    exact ⟨⟨⟨⟨hrequests, hrps⟩,
      fun cap hcap => (satAdd_le_iff (hvalid.inputTokens cap hcap)).mpr (hin cap hcap)⟩,
      fun cap hcap => (satAdd_le_iff (hvalid.outputTokens cap hcap)).mpr (hout cap hcap)⟩,
      fun cap hcap => (satAdd_satAdd_le_iff (hvalid.totalTokens cap hcap)).mpr (htotal cap hcap)⟩

/-- Requests that were counted before the check hold beside the one it lets through. A saturated count says
no less, since fewer than `2 ^ 64` requests are claimed. -/
private theorem holdsRequests_of_fitsAfter {limit : QuotaLimit} {inputTokens outputTokens count : Nat}
    {events : List UsageEvent} (h : fitsAfter limit inputTokens outputTokens events = true)
    (hle : count ≤ events.length + 1) (hcount : count < 2 ^ 64) : limit.HoldsRequests count := by
  have hsat : count ≤ satAdd events.length 1 := by
    unfold satAdd maxU64
    omega
  have hmul (rps : Nat) : satMul rps limit.windowSeconds ≤ rps * limit.windowSeconds := Nat.min_le_left ..
  unfold fitsAfter at h
  simp only [capFit, Bool.and_eq_true] at h
  obtain ⟨⟨⟨hrequests, -⟩, -⟩, -⟩ := h
  unfold requestCap at hrequests
  refine ⟨fun cap hcap => ?_, fun rps hrps => Nat.le_trans ?_ (hmul rps)⟩
  · rw [hcap] at hrequests
    cases hrps : limit.maxRps with
    | none =>
      rw [hrps] at hrequests
      exact Nat.le_trans hsat (by simpa using hrequests)
    | some rps =>
      rw [hrps] at hrequests
      exact Nat.le_trans hsat (Nat.le_trans (by simpa using hrequests) (Nat.min_le_left ..))
  · rw [hrps] at hrequests
    cases hcap : limit.maxRequests with
    | none =>
      rw [hcap] at hrequests
      exact Nat.le_trans hsat (by simpa using hrequests)
    | some cap =>
      rw [hcap] at hrequests
      exact Nat.le_trans hsat (Nat.le_trans (by simpa using hrequests) (Nat.min_le_right ..))

/-- The room a valid limit has for a request is room for its reservation, as long as no total that it caps wraps. -/
private theorem holdsTokens_of_fitsAfter {limit : QuotaLimit} (hvalid : limit.Valid) {events : List UsageEvent}
    {event : UsageEvent} (hexact : limit.Exact events)
    (h : fitsAfter limit event.inputTokens event.outputTokens events = true) :
    limit.HoldsTokens (events ++ [event]) := by
  have hinput : inputSum (events ++ [event]) = inputSum events + event.inputTokens := by simp [inputSum]
  have houtput : outputSum (events ++ [event]) = outputSum events + event.outputTokens := by simp [outputSum]
  have hsumIn (hcapped : limit.maxInputTokens.isSome ∨ limit.maxTotalTokens.isSome) :
      sumU64 (events.map UsageEvent.inputTokens) = inputSum events := Nat.mod_eq_of_lt (hexact.input hcapped)
  have hsumOut (hcapped : limit.maxOutputTokens.isSome ∨ limit.maxTotalTokens.isSome) :
      sumU64 (events.map UsageEvent.outputTokens) = outputSum events := Nat.mod_eq_of_lt (hexact.output hcapped)
  unfold fitsAfter at h
  simp only [capFit, Bool.and_eq_true, Option.all_eq_true, decide_eq_true_eq] at h
  obtain ⟨⟨⟨-, hin⟩, hout⟩, htotal⟩ := h
  refine ⟨fun cap hcap => ?_, fun cap hcap => ?_, fun cap hcap => ?_⟩
  · rw [hinput, ← hsumIn (.inl (by simp [hcap]))]
    exact (satAdd_le_iff (hvalid.inputTokens cap hcap)).mp (hin cap hcap)
  · rw [houtput, ← hsumOut (.inl (by simp [hcap]))]
    exact (satAdd_le_iff (hvalid.outputTokens cap hcap)).mp (hout cap hcap)
  · have hle := (satAdd_satAdd_le_iff (hvalid.totalTokens cap hcap)).mp (htotal cap hcap)
    rw [hsumIn (.inr (by simp [hcap])), hsumOut (.inr (by simp [hcap]))] at hle
    omega

/-- What is recorded within a window of the true time also counts at a reading that lags behind. -/
private theorem recent_sublist_seen {limit : QuotaLimit} {provider authScope : String} {now clock : Nat}
    (hnow : now ≤ clock) {events : List UsageEvent} (hrecorded : ∀ event ∈ events, event.atTime ≤ clock) :
    (limit.recent provider authScope clock events).Sublist (limit.seen provider authScope now events) := by
  have hseen : limit.recent provider authScope clock events = (limit.seen provider authScope now events).filter
      (fun event => clock < event.atTime + fromSecs limit.windowSeconds) := by
    unfold QuotaLimit.recent QuotaLimit.seen
    rw [List.filter_filter]
    refine List.filter_congr fun event hevent => ?_
    have hle := hrecorded event hevent
    rw [Bool.eq_iff_iff]
    simp only [Bool.and_eq_true, decide_eq_true_eq]
    constructor
    · rintro ⟨hlt, hgroup⟩
      exact ⟨hlt, by omega, hgroup⟩
    · rintro ⟨hlt, -, hgroup⟩
      exact ⟨hlt, hgroup⟩
  rw [hseen]
  exact List.filter_sublist

private theorem expired_not_recent {limit : QuotaLimit} {provider authScope : String} {clock : Nat}
    {expired events : List UsageEvent}
    (h : ∀ event ∈ expired, event.atTime + fromSecs limit.windowSeconds ≤ clock) :
    limit.recent provider authScope clock (expired ++ events) =
      limit.recent provider authScope clock events := by
  have hnone : limit.recent provider authScope clock expired = [] := List.filter_eq_nil_iff.mpr
    fun event hevent => by
      have hle := h event hevent
      simp
      omega
  unfold QuotaLimit.recent at hnone ⊢
  rw [List.filter_append, hnone, List.nil_append]

/-- A limit without a window has no rolling caps. -/
private theorem QuotaLimit.Valid.uncapped {limit : QuotaLimit} (hvalid : limit.Valid)
    (h : ¬ 0 < limit.windowSeconds) (count : Nat) (events : List UsageEvent) :
    limit.HoldsRequests count ∧ limit.HoldsTokens events := by
  have hnone := fun hsome => h (hvalid.window hsome)
  refine ⟨⟨fun cap hcap => ?_, fun cap hcap => ?_⟩, fun cap hcap => ?_, fun cap hcap => ?_, fun cap hcap => ?_⟩
  all_goals exact absurd (by simp [hcap]) hnone

theorem counted_eq_seen (limit : QuotaLimit) (request : ScheduleRequest) (now : Nat)
    (events : List UsageEvent) :
    counted limit request now events = limit.seen request.provider request.authScope now events := by
  unfold counted QuotaLimit.seen
  refine List.filter_congr fun event _ => ?_
  simp [eventMatches, QuotaLimit.groups, Bool.and_assoc]

/-- A call finds and leaves nothing recorded in the future. -/
private theorem Ledger.Sound.call_recorded {ledger : Ledger} {turn : Turn} (h : ledger.Sound inner)
    (hready : ledger.Ready inner turn) {call : State × Closings}
    (hcall : call ∈ turn.work.calls inner turn.closed turn.now ledger.state) {id : Nat} {pending : Pending} :
    ∀ event ∈ call.1.events ++ [pending.event id turn.now], event.atTime ≤ ledger.clock + turn.elapsed := by
  obtain ⟨sent, returned, hmoves⟩ := Section.calls_moves hcall
  intro event hevent
  rcases List.mem_append.mp hevent with hevent | hevent
  · rcases hmoves.events hevent with hevent | htime
    · exact h.opened_recorded event hevent
    · exact htime ▸ hready.1
  · cases List.mem_singleton.mp hevent
    exact hready.1

/-- A reservation is seen by every limit that selects its request and has a window. -/
private theorem seen_append_event {limit : QuotaLimit} (hwindow : 0 < limit.windowSeconds) {id : Nat}
    {pending : Pending} (hselects : limit.selects pending.request.provider pending.request.model = true)
    (events : List UsageEvent) :
    limit.seen pending.request.provider pending.request.authScope now (events ++ [pending.event id now]) =
      limit.seen pending.request.provider pending.request.authScope now events ++ [pending.event id now] := by
  have hcounts : limit.groups pending.request.provider pending.request.authScope (pending.event id now) = true := by
    simp [QuotaLimit.groups, Pending.event]
    simp [QuotaLimit.selects] at hselects
    exact hselects.2
  have hpos : now - (pending.event id now).atTime < fromSecs limit.windowSeconds := by
    simp [Pending.event, fromSecs, hwindow]
  simp [QuotaLimit.seen, hcounts, hpos]

/-- A ready request fits beside what the scheduler sees. -/
private theorem fitsAfter_of_ready {limit : QuotaLimit} (hlimit : limit ∈ inner.policy.limits) {pending : Pending}
    (henabled : inner.policy.enabled = true) (hready : pending.readyAt inner s now = true)
    (hselects : limit.selects pending.request.provider pending.request.model = true) :
    fitsAfter limit pending.inputTokens pending.outputTokens
      (limit.seen pending.request.provider pending.request.authScope now s.events) = true := by
  obtain ⟨index, hindex⟩ := List.mem_iff_getElem?.mp hlimit
  have room := (clear_of_readyAt henabled hready).room (limit, index)
    (List.mk_mem_zipIdx_iff_getElem?.mpr hindex) hselects
  rw [← counted_eq_seen]
  exact room.rolling

/-- The reservations that count against a permit once a call of the section has sent it: those made and not aborted
that are recorded within the window of the limit before the true time. -/
def Ledger.recent (inner : Inner) (ledger : Ledger) (turn : Turn) (call : State × Closings) (limit : QuotaLimit)
    (permit : SchedulePermit) : List UsageEvent :=
  limit.recent permit.provider permit.authScope (ledger.next inner turn).clock
    ((ledger.next inner turn).expired ++ (dispatchReady inner call.2 turn.now call.1).state.events)

/-- No dispatch exceeds a rolling quota on requests, and none exceeds one on tokens unless a total that it caps
wraps. Whenever a section of a run sends a permit, one of its calls sent it, and every limit that selects the
request holds for the reservations recorded within its window of the true time, this one included. -/
theorem rolling_quota_kept (hvalid : inner.policy.validate = .ok ()) {ledger : Ledger}
    (hrun : (ledgers inner).Run (fun _ _ => True) ledger) {turn : Turn} (hready : ledger.Ready inner turn)
    {sender : Nat} {permit : SchedulePermit}
    (hsent : (sender, .dispatch permit) ∈ (turn.work.run inner turn.closed turn.now ledger.state).sent) :
    (∃ call ∈ turn.work.calls inner turn.closed turn.now ledger.state,
      (sender, .dispatch permit) ∈ (dispatchReady inner call.2 turn.now call.1).sent) ∧
    ∀ call ∈ turn.work.calls inner turn.closed turn.now ledger.state,
      (sender, .dispatch permit) ∈ (dispatchReady inner call.2 turn.now call.1).sent →
      ∀ limit ∈ inner.policy.limits, limit.selects permit.provider permit.model = true →
        ((ledger.recent inner turn call limit permit).length < 2 ^ 64 →
          limit.HoldsRequests (ledger.recent inner turn call limit permit).length) ∧
        (limit.Exact (limit.seen permit.provider permit.authScope turn.now call.1.events) →
          limit.HoldsTokens (ledger.recent inner turn call limit permit)) := by
  have hsound := Ledger.sound hrun
  rw [Section.run_sent] at hsent
  refine ⟨List.mem_flatMap.mp hsent, fun call hcall hsent limit hlimit hselects => ?_⟩
  have hlimitValid := SchedulingPolicy.validate_limits hvalid limit hlimit
  obtain ⟨sent, returned, hmoves⟩ := Section.calls_moves hcall
  obtain ⟨id, pending, found, hpending, -, rfl, hevents⟩ := dispatchReady_sent hsent
  have hexpired : ∀ event ∈ (ledger.next inner turn).expired,
      event.atTime + fromSecs limit.windowSeconds ≤ (ledger.next inner turn).clock := fun event hevent =>
    Nat.le_trans (Nat.add_le_add_left (window_le_maxWindow hlimit) _)
      ((hsound.next hready).expired event hevent)
  unfold Ledger.recent
  rw [expired_not_recent hexpired, hevents]
  by_cases hwindow : 0 < limit.windowSeconds
  · have hmem : ⟨id, pending⟩ ∈ (turn.work.opened inner turn.now ledger.state).pending.entries :=
      AList.mem_lookup_iff.mp (hmoves.pending found)
    have henabled := hsound.opened_queued turn (List.ne_nil_of_mem hmem)
    have hfits := fitsAfter_of_ready hlimit henabled hpending hselects
    have hrecorded := @Ledger.Sound.call_recorded _ _ _ hsound hready _ hcall id pending
    have hrecent := @recent_sublist_seen limit pending.request.provider pending.request.authScope _ _ hready.1 _ hrecorded
    rw [seen_append_event hwindow hselects] at hrecent
    refine ⟨fun hcount => holdsRequests_of_fitsAfter hfits ?_ hcount,
      fun hexact => (holdsTokens_of_fitsAfter hlimitValid hexact hfits).sublist hrecent⟩
    have hlength := hrecent.length_le
    rwa [List.length_append] at hlength
  · obtain ⟨hrequests, htokens⟩ := hlimitValid.uncapped hwindow _ _
    exact ⟨fun _ => hrequests, fun _ => htokens⟩

section Examples

private def tokens (inputTokens : Nat) : ScheduleRequest :=
  { ScheduleRequest.plain "openai" "key" "gpt" with inputTokens }

/-- A permit of the group that was dispatched as soon as it was asked for. -/
private def tokensPermit (id inputTokens : Nat) : SchedulePermit :=
  { reservationId := some id, provider := "openai", authScope := "key", model := "gpt", sessionId := none
    interaction := .unknown, inputTokens, outputTokens := 0, waited := 0 }

private def capped (limit : QuotaLimit) : Inner :=
  .plain { enabled := true, limits := [limit], queueCoalesceMs := 0 }

private def seconds (n : Nat) : Nat := n * 1000000000

/-- A request for these tokens arrives so much later and is dispatched at once. -/
private def asked (elapsed now id inputTokens : Nat) : List Turn :=
  [⟨elapsed, now, undisturbed, .enqueue id (tokens inputTokens)⟩, ⟨0, now, undisturbed, .pass id (tokens inputTokens)⟩]

private def twoAMinute : QuotaLimit := { windowSeconds := 60, maxRequests := some 2, maxInputTokens := some 10 }

private def second : Turn := ⟨seconds 1, seconds 20, undisturbed, .pass 1 (tokens 4)⟩

private def beforeSecond : Ledger := (ledgers (capped twoAMinute)).replay (ledgers (capped twoAMinute)).initial
  (asked 0 0 0 3 ++ [⟨seconds 20, seconds 20, undisturbed, .enqueue 1 (tokens 4)⟩])

private def secondCall : State × Closings :=
  (second.work.opened (capped twoAMinute) second.now beforeSecond.state, undisturbed 0)

/-- The second request is dispatched on a stale reading and uses up the quota. -/
theorem rolling_quota_kept_first :
    let recent := beforeSecond.recent (capped twoAMinute) second secondCall twoAMinute (tokensPermit 1 4)
    recent.length = 2 ∧ twoAMinute.HoldsRequests recent.length ∧ twoAMinute.HoldsTokens recent := by
  have hrun : (ledgers (capped twoAMinute)).Run (fun _ _ => True) beforeSecond := .replay .initial (by decide)
  have hsent : (1, .dispatch (tokensPermit 1 4)) ∈
      (second.work.run (capped twoAMinute) undisturbed second.now beforeSecond.state).sent := by decide
  have hready : beforeSecond.Ready (capped twoAMinute) second := by decide
  obtain ⟨hrequests, htokens⟩ := (rolling_quota_kept rfl hrun hready hsent).2 secondCall
    (List.mem_singleton.mpr rfl) (by decide) twoAMinute (List.mem_singleton.mpr rfl) (by decide)
  exact ⟨by decide, hrequests (by decide), htokens ⟨by decide, by decide⟩⟩

private def thousand : QuotaLimit := { windowSeconds := 60, maxInputTokens := some 1000 }

/-- The first of two requests has reported so many tokens that the two together come to `2 ^ 64`. -/
private def overReported : Ledger := (ledgers (capped thousand)).replay (ledgers (capped thousand)).initial
  (asked 0 0 0 100 ++ asked (seconds 10) (seconds 10) 1 600 ++
    [⟨seconds 1, seconds 11, undisturbed, .complete (tokensPermit 0 100) (some (2 ^ 64 - 600)) none none⟩,
     ⟨seconds 48, seconds 59, undisturbed, .enqueue 2 (tokens 600)⟩])

/-- It reads the clock a second before the first reservation leaves the window, and runs a second after that. -/
private def stale : Turn := ⟨seconds 2, seconds 59, undisturbed, .pass 2 (tokens 600)⟩

private def staleCall : State × Closings :=
  (stale.work.opened (capped thousand) stale.now overReported.state, undisturbed 0)

/-- The third request is dispatched because the sum of the reported tokens wraps at the reading. Within a window
of the true time 1200 tokens are then reserved under a cap of 1000, and nothing that is recorded there wraps. -/
theorem wrapped_sum_exceeds_quota :
    let recent := overReported.recent (capped thousand) stale staleCall thousand (tokensPermit 2 600)
    (capped thousand).policy.validate = .ok () ∧
      (ledgers (capped thousand)).Run (fun _ _ => True) overReported ∧ overReported.Ready (capped thousand) stale ∧
      staleCall ∈ stale.work.calls (capped thousand) stale.closed stale.now overReported.state ∧
      (2, .dispatch (tokensPermit 2 600)) ∈ (dispatchReady (capped thousand) staleCall.2 stale.now staleCall.1).sent ∧
      thousand.selects "openai" "gpt" = true ∧ Unwrapped recent ∧ inputSum recent = 1200 ∧
      ¬ thousand.HoldsTokens recent := by
  have hsum : inputSum (overReported.recent (capped thousand) stale staleCall thousand (tokensPermit 2 600)) = 1200 := by
    decide
  refine ⟨rfl, .replay .initial (by decide), by decide, List.mem_singleton.mpr rfl, by decide, rfl,
    ⟨by decide, by decide, by decide⟩, hsum, fun h => ?_⟩
  have hle := h.input 1000 rfl
  omega

end Examples
end Kaiion.Scheduling
