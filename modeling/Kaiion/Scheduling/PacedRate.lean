import Kaiion.Scheduling.Pacing
import Kaiion.Scheduling.RollingQuota

/-! The paced request rate over whole runs. Beside the ledger a history lists what was dispatched and
not taken back since; the pacing table is shown to remember every entry of it for long enough. -/
namespace Kaiion.Scheduling
open Foundation

variable {inner : Inner} {mayOpen : Nat → Prop} {now clock : Nat} {s t : State}

/-- A permit that was sent, with the clock reading it was recorded at and the true time. -/
structure Dispatched where
  permit : SchedulePermit
  recorded : Nat
  sentAt : Nat
  deriving DecidableEq

def dispatchOf (recorded sentAt : Nat) : ScheduleOutcome → Option Dispatched
  | .dispatch permit => some { permit, recorded, sentAt }
  | _ => none

def dispatches (recorded sentAt : Nat) (sent : List (Nat × ScheduleOutcome)) : List Dispatched :=
  sent.filterMap (fun entry => dispatchOf recorded sentAt entry.2)

/-- The dispatches whose reservation is none of these. -/
def without (ids : List Nat) (history : List Dispatched) : List Dispatched :=
  history.filter (fun dispatched => dispatched.permit.reservationId.all (fun id => id ∉ ids))

structure History where
  ledger : Ledger
  dispatched : List Dispatched

/-- The reservations a section takes back before it looks at the queue. -/
def Section.aborts : Section → List Nat
  | .abort id => [id]
  | _ => []

/-- An abort takes a dispatch out of the history, and so does a permit of the same reservation that
comes back from a closed channel. -/
def History.next (inner : Inner) (history : History) (turn : Turn) : History :=
  let pass := turn.work.run inner turn.closed turn.now history.ledger.state
  { ledger := history.ledger.next inner turn
    dispatched := without pass.returned (without turn.work.aborts history.dispatched ++
      dispatches turn.now (history.ledger.clock + turn.elapsed) pass.sent) }

/-- The critical sections of one scheduler, in lock order, with the history of its dispatches. -/
def histories (inner : Inner) : Machine History Turn :=
  { initial := { ledger := (ledgers inner).initial, dispatched := [] }
    enabled := fun history turn => history.ledger.Ready inner turn
    next := History.next inner }

/-- The limit paces the two permits as one group. -/
def QuotaLimit.paces (limit : QuotaLimit) (earlier later : SchedulePermit) : Bool :=
  limit.selects earlier.provider earlier.model && limit.selects later.provider later.model &&
    earlier.provider = later.provider && (!limit.authScoped || earlier.authScope = later.authScope)

/-- Two dispatches of one group are a pause apart. -/
def Spaced (inner : Inner) (history : List Dispatched) : Prop :=
  ∀ limit ∈ inner.policy.limits, ∀ rps, limit.maxRps = some rps →
    history.Pairwise (fun earlier later => limit.paces earlier.permit later.permit = true →
      earlier.recorded + inner.durationForRate rps ≤ later.sentAt)

/-- The event is the reservation of this dispatch. -/
structure Dispatched.IsIn (dispatched : Dispatched) (event : UsageEvent) : Prop where
  id : dispatched.permit.reservationId = some event.id
  atTime : event.atTime = dispatched.recorded
  provider : event.provider = dispatched.permit.provider
  authScope : event.authScope = dispatched.permit.authScope
  model : event.model = dispatched.permit.model

/-- The ledger has the dispatch until it is out of every window, and the pacing table has the pause
after it until that has passed. -/
structure Remembered (inner : Inner) (clock : Nat) (s : State) (dispatched : Dispatched) : Prop where
  past : dispatched.recorded ≤ clock
  recorded : dispatched.recorded + maxWindow inner.policy ≤ clock ∨
    ∃ event ∈ s.events, dispatched.IsIn event
  paced : ∀ entry ∈ inner.policy.limits.zipIdx, ∀ rps, entry.1.maxRps = some rps →
    entry.1.selects dispatched.permit.provider dispatched.permit.model = true →
    dispatched.recorded + inner.durationForRate rps ≤ clock ∨
      PacedTo s.pacing (pacingKey entry.2 entry.1 dispatched.permit.provider dispatched.permit.authScope
        .requests) (dispatched.recorded + inner.durationForRate rps)

variable {dispatched : Dispatched}

theorem Remembered.later {time : Nat} (h : Remembered inner clock s dispatched) (hle : clock ≤ time) :
    Remembered inner time s dispatched where
  past := Nat.le_trans h.past hle
  recorded := h.recorded.imp (fun hold => Nat.le_trans hold hle) id
  paced entry hentry rps hrps hselects :=
    (h.paced entry hentry rps hrps hselects).imp (fun hold => Nat.le_trans hold hle) id

/-- Only the ledger and the pacing table matter, and both may grow. -/
theorem Remembered.mono (h : Remembered inner clock s dispatched)
    (events : ∀ event ∈ s.events, dispatched.IsIn event → ∃ kept ∈ t.events, dispatched.IsIn kept)
    (pacing : ∀ key instant, PacedTo s.pacing key instant → PacedTo t.pacing key instant) :
    Remembered inner clock t dispatched where
  past := h.past
  recorded := h.recorded.imp id fun ⟨event, hevent, hin⟩ => events event hevent hin
  paced entry hentry rps hrps hselects :=
    (h.paced entry hentry rps hrps hselects).imp id (pacing _ _)

theorem Remembered.same (h : Remembered inner clock s dispatched) (hevents : t.events = s.events)
    (hpacing : t.pacing = s.pacing) : Remembered inner clock t dispatched :=
  h.mono (fun event hevent hin => ⟨event, hevents ▸ hevent, hin⟩) (fun _ _ hpaced => hpacing ▸ hpaced)

/-- What the events that leave the ledger by their id leave alone. -/
theorem Remembered.filtered {id : Nat} (hother : dispatched.permit.reservationId ≠ some id)
    {event : UsageEvent} {events : List UsageEvent} (hevent : event ∈ events) (hin : dispatched.IsIn event) :
    event ∈ events.filter (fun event => event.id ≠ id) :=
  List.mem_filter.mpr ⟨hevent, decide_eq_true fun heq => hother (heq ▸ hin.id)⟩

/-- Pruning forgets what no longer matters. -/
theorem Remembered.pruned (h : Remembered inner clock s dispatched) (hnow : now ≤ clock) :
    Remembered inner clock (pruneEvents inner.policy now s) dispatched where
  past := h.past
  recorded := by
    rcases h.recorded with hold | ⟨event, hevent, hin⟩
    · exact .inl hold
    · rcases @mem_pruneEvents now s inner.policy event hevent with hkept | hold
      · exact .inr ⟨event, hkept, hin⟩
      · have htime := hin.atTime
        have hpast := h.past
        exact .inl (by omega)
  paced entry hentry rps hrps hselects := by
    rcases h.paced entry hentry rps hrps hselects with hold | ⟨paced, hpaced, hle⟩
    · exact .inl hold
    · by_cases hahead : now < paced
      · refine .inr ⟨paced, ?_, hle⟩
        simp [pruneEvents, hpaced, hahead]
      · exact .inl (by omega)

/-- Completion rewrites what an event has used and keeps its face. -/
private theorem rewriteUsage_keeps {id : Nat} {inputTokens outputTokens : Option Nat}
    {events : List UsageEvent} {event : UsageEvent} (hevent : event ∈ events)
    (hin : dispatched.IsIn event) :
    ∃ kept ∈ rewriteUsage id inputTokens outputTokens events, dispatched.IsIn kept := by
  induction events with
  | nil => exact nomatch hevent
  | cons first rest ih =>
    unfold rewriteUsage
    rcases List.mem_cons.mp hevent with rfl | hrest
    · split
      · exact ⟨_, List.mem_cons_self, hin.id, hin.atTime, hin.provider, hin.authScope, hin.model⟩
      · exact ⟨_, List.mem_cons_self, hin⟩
    · split
      · exact ⟨event, List.mem_cons_of_mem _ hrest, hin⟩
      · obtain ⟨kept, hkept, hin'⟩ := ih hrest
        exact ⟨kept, List.mem_cons_of_mem _ hkept, hin'⟩

theorem selects_ruleMatches {limit : QuotaLimit} {request : ScheduleRequest}
    (h : limit.selects request.provider request.model = true) : ruleMatches limit request = true := h

private theorem fromSecs_one_le_maxWindow (hvalid : inner.policy.validate = .ok ()) {limit : QuotaLimit}
    (hlimit : limit ∈ inner.policy.limits) {rps : Nat} (hrps : limit.maxRps = some rps) :
    fromSecs 1 ≤ maxWindow inner.policy := by
  have hwindow := (SchedulingPolicy.validate_limits hvalid limit hlimit).window (.inl (by simp [hrps]))
  exact Nat.le_trans (Nat.mul_le_mul_right _ hwindow) (window_le_maxWindow hlimit)

/-- `duration_for_rate` asks for a pause of at most a second. -/
def ShortPauses (inner : Inner) : Prop := ∀ rate, 0 < rate → inner.durationForRate rate ≤ fromSecs 1

/-- A pacing table that was rebuilt has the pause of every dispatch that is not out of every window. -/
theorem Remembered.revoked (hvalid : inner.policy.validate = .ok ()) (hrate : ShortPauses inner) {id : Nat}
    (h : Remembered inner clock s dispatched) (hother : dispatched.permit.reservationId ≠ some id) :
    Remembered inner clock (s.revoke inner id) dispatched := by
  obtain ⟨pacing, heq⟩ := revoke_eq inner id s
  have hrecorded : dispatched.recorded + maxWindow inner.policy ≤ clock ∨
      ∃ event ∈ (s.retract id).events, dispatched.IsIn event :=
    h.recorded.imp (fun hold => hold) fun ⟨event, hevent, hin⟩ => ⟨event, Remembered.filtered hother hevent hin, hin⟩
  refine ⟨h.past, by rw [heq]; exact hrecorded, fun entry hentry rps hrps hselects => ?_⟩
  obtain ⟨limit, index⟩ := entry
  have hlimit : limit ∈ inner.policy.limits :=
    List.mem_of_getElem? (List.mk_mem_zipIdx_iff_getElem?.mp hentry)
  rcases hrecorded with hold | ⟨event, hevent, hin⟩
  · have hpos := ((SchedulingPolicy.validate_limits hvalid limit hlimit).rps rps hrps).1
    have hone := fromSecs_one_le_maxWindow hvalid hlimit hrps
    have hpause := hrate rps hpos
    exact .inl (by omega)
  · refine .inr ?_
    rw [← hin.atTime, ← hin.provider, ← hin.authScope]
    refine rebuildPacing_adds hevent hentry hrps (selects_ruleMatches ?_)
    change limit.selects event.provider event.model = true
    rw [hin.provider, hin.model]
    exact hselects

theorem Remembered.opened (hvalid : inner.policy.validate = .ok ()) (hrate : ShortPauses inner)
    {work : Section} (hnow : now ≤ clock) (h : Remembered inner clock s dispatched)
    (hother : ∀ id ∈ work.aborts, dispatched.permit.reservationId ≠ some id) :
    Remembered inner clock (work.opened inner now s) dispatched := by
  have hedit : Remembered inner clock (work.edit inner now s) dispatched := by
    cases work with
    | enqueue | pass => exact h
    | dropLease id => exact h.same rfl rfl
    | expire id | dropPending id =>
      exact h.same (by simp [Section.edit, State.withdraw]) (by simp [Section.edit, State.withdraw])
    | complete permit inputTokens outputTokens cacheReadHit =>
      obtain ⟨sessions, heq⟩ := settle_eq now permit inputTokens outputTokens cacheReadHit s
      rw [Section.edit, heq]
      refine h.mono (fun event hevent hin => ?_) (fun _ _ hpaced => hpaced)
      dsimp only
      split
      · exact ⟨event, hevent, hin⟩
      · exact rewriteUsage_keeps hevent hin
    | abort id => exact h.revoked hvalid hrate (hother id (List.mem_singleton.mpr rfl))
  unfold Section.opened
  split
  · exact hedit.pruned hnow
  · exact hedit

/-- What a pass dispatches is kept apart. -/
structure Kept (inner : Inner) (clock : Nat) (s : State) (history : List Dispatched) : Prop where
  spaced : Spaced inner history
  remembered : ∀ dispatched ∈ history, Remembered inner clock s dispatched

theorem Kept.sublist {history fewer : List Dispatched} (h : Kept inner clock s history)
    (hsub : fewer.Sublist history) : Kept inner clock s fewer where
  spaced limit hlimit rps hrps := (h.spaced limit hlimit rps hrps).sublist hsub
  remembered dispatched hmem := h.remembered dispatched (hsub.subset hmem)

theorem Kept.mono {time : Nat} {history : List Dispatched} (h : Kept inner clock s history)
    (remembers : ∀ dispatched ∈ history, Remembered inner clock s dispatched →
      Remembered inner time t dispatched) : Kept inner time t history where
  spaced := h.spaced
  remembered dispatched hmem := remembers dispatched hmem (h.remembered dispatched hmem)

theorem without_sublist (ids : List Nat) (history : List Dispatched) :
    (without ids history).Sublist history := List.filter_sublist

@[simp] theorem without_nil (history : List Dispatched) : without [] history = history := by
  refine List.filter_eq_self.mpr fun dispatched _ => ?_
  cases dispatched.permit.reservationId <;> simp

theorem without_cons (id : Nat) (ids : List Nat) (history : List Dispatched) :
    without (id :: ids) history = without ids (without [id] history) := by
  unfold without
  rw [List.filter_filter]
  refine List.filter_congr fun dispatched _ => ?_
  cases dispatched.permit.reservationId <;> simp [Bool.and_comm]

theorem not_taken_of_mem {ids : List Nat} {history : List Dispatched} (h : dispatched ∈ without ids history)
    {id : Nat} (hid : id ∈ ids) : dispatched.permit.reservationId ≠ some id := by
  intro heq
  have htaken := (List.mem_filter.mp h).2
  rw [heq] at htaken
  simp [hid] at htaken

private theorem pacingKey_of_group {limit : QuotaLimit} {earlier later : SchedulePermit}
    (h : limit.paces earlier later = true) (index : Nat) (metric : PaceMetric) :
    pacingKey index limit earlier.provider earlier.authScope metric =
      pacingKey index limit later.provider later.authScope metric := by
  simp only [QuotaLimit.paces, Bool.and_eq_true, Bool.or_eq_true, decide_eq_true_eq] at h
  obtain ⟨⟨-, hprovider⟩, hscope⟩ := h
  unfold pacingKey
  rw [hprovider]
  rcases hscope with hscope | hscope
  · simp [show limit.authScoped = false by simpa using hscope]
  · rw [hscope]

/-- A request that is ready keeps its distance from every dispatch that is remembered. -/
theorem Remembered.spaces {id : Nat} {pending : Pending} (henabled : inner.policy.enabled = true)
    (hnow : now ≤ clock) (h : Remembered inner clock s dispatched)
    (hready : pending.readyAt inner s now = true) {limit : QuotaLimit} (hlimit : limit ∈ inner.policy.limits)
    {rps : Nat} (hrps : limit.maxRps = some rps)
    (hpaces : limit.paces dispatched.permit (pending.permit id now) = true) :
    dispatched.recorded + inner.durationForRate rps ≤ clock := by
  obtain ⟨index, hindex⟩ := List.mem_iff_getElem?.mp hlimit
  have hentry : (limit, index) ∈ inner.policy.limits.zipIdx := List.mk_mem_zipIdx_iff_getElem?.mpr hindex
  have hgroup := pacingKey_of_group hpaces index .requests
  have hselects := hpaces
  simp only [QuotaLimit.paces, Bool.and_eq_true] at hselects
  obtain ⟨⟨⟨hearlier, hlater⟩, -⟩, -⟩ := hselects
  rcases h.paced (limit, index) hentry rps hrps hearlier with hold | ⟨paced, hpaced, hle⟩
  · exact hold
  · have room := (clear_of_readyAt henabled hready).room (limit, index) hentry (selects_ruleMatches hlater)
    have hmetric : PaceMetric.requests ∈ pacedMetrics limit pending.inputTokens pending.outputTokens := by
      simp [pacedMetrics, hrps]
    rw [hgroup] at hpaced
    have hinstant := room.paced paced (List.mem_filterMap.mpr ⟨.requests, hmetric, hpaced⟩)
    omega

/-- The new dispatch is apart from those before it, and the state remembers it. -/
theorem Kept.grant {history : List Dispatched} {id : Nat} {pending : Pending}
    (henabled : inner.policy.enabled = true) (hnow : now ≤ clock) (h : Kept inner clock s history)
    (hready : pending.readyAt inner s now = true) :
    Kept inner clock (s.grant inner id now pending)
      (history ++ [{ permit := pending.permit id now, recorded := now, sentAt := clock }]) where
  spaced limit hlimit rps hrps := by
    refine List.pairwise_append.mpr ⟨h.spaced limit hlimit rps hrps, List.pairwise_singleton _ _, ?_⟩
    intro earlier hearlier later hlater hpaces
    cases List.mem_singleton.mp hlater
    exact (h.remembered earlier hearlier).spaces henabled hnow hready hlimit hrps hpaces
  remembered dispatched hmem := by
    rcases List.mem_append.mp hmem with hmem | hmem
    · refine (h.remembered dispatched hmem).mono (fun event hevent hin => ?_) (fun key instant hpaced => ?_)
      · exact ⟨event, by rw [grant_events]; exact List.mem_append_left _ hevent, hin⟩
      · refine updatePacing_keeps ?_
        simpa [State.reserve] using hpaced
    · cases List.mem_singleton.mp hmem
      refine ⟨hnow, .inr ⟨pending.event id now, by simp, rfl, rfl, rfl, rfl, rfl⟩, ?_⟩
      exact fun entry hentry rps hrps hselects =>
        .inr (updatePacing_adds hentry hrps (selects_ruleMatches hselects) _)

/-- The reservation that is taken back drops every record of its id from the ledger. -/
theorem Kept.undo {history : List Dispatched} (h : Kept inner clock s history) (id : Nat)
    (pending : Pending) : Kept inner clock (((s.removePending id).reserve id now pending).retract id)
      (without [id] history) := by
  refine (h.sublist (without_sublist [id] history)).mono fun dispatched hmem hd => ?_
  have hother := not_taken_of_mem hmem (List.mem_singleton.mpr rfl)
  refine hd.mono (fun event hevent hin => ?_) (fun key instant hpaced => ?_)
  · refine ⟨event, Remembered.filtered hother ?_ hin, hin⟩
    simp [State.reserve, hevent]
  · simpa [State.reserve, State.retract] using hpaced

theorem dispatches_cons (recorded sentAt sender : Nat) (outcome : ScheduleOutcome)
    (sent : List (Nat × ScheduleOutcome)) : dispatches recorded sentAt ((sender, outcome) :: sent) =
      (dispatchOf recorded sentAt outcome).toList ++ dispatches recorded sentAt sent := by
  unfold dispatches
  cases h : dispatchOf recorded sentAt outcome <;> simp [h]

/-- What the moves of a pass make of the history. -/
theorem Kept.moves {sent : List (Nat × ScheduleOutcome)} {returned : List Nat} (hnow : now ≤ clock)
    (hmoves : Moves inner mayOpen now s sent returned t)
    (henabled : s.pending.entries ≠ [] → inner.policy.enabled = true) {history : List Dispatched}
    (h : Kept inner clock s history) :
    Kept inner clock t (without returned (history ++ dispatches now clock sent)) := by
  have queued : ∀ {u : State} {id : Nat} {pending : Pending}, u.pending.lookup id = some pending →
      u.pending.entries ≠ [] := fun found => List.ne_nil_of_mem (AList.mem_lookup_iff.mp found)
  induction hmoves generalizing history with
  | stop => simpa [dispatches] using h
  | calm settled _ ih => exact ih henabled (h.mono fun _ _ hd => hd.same rfl rfl)
  | discard id pending found _ ih =>
    exact ih (fun _ => henabled (queued found)) (h.mono fun _ _ hd => hd.same (by simp) (by simp))
  | refuse id pending found outcome live _ ih =>
    have hnone : dispatchOf now clock outcome = none := by
      cases outcome with
      | dispatch permit => exact absurd rfl (live permit)
      | recommendBatch | retryExhausted => rfl
    rw [dispatches_cons, hnone, Option.toList_none, List.nil_append]
    exact ih (fun _ => henabled (queued found)) (h.mono fun _ _ hd => hd.same (by simp) (by simp))
  | grant id pending found ready receiver _ ih =>
    have henabled := henabled (queued found)
    rw [dispatches_cons, ← List.append_assoc]
    exact ih (fun _ => henabled) (h.grant henabled hnow ready)
  | @undo _ _ sent returned id pending found _ ih =>
    refine (ih (fun _ => henabled (queued found)) (h.undo id pending)).sublist ?_
    rw [without_cons]
    have hsub : (without [id] (history ++ dispatches now clock sent)).Sublist
        (without [id] history ++ dispatches now clock sent) := by
      rw [without, List.filter_append]
      exact (List.Sublist.refl _).append (without_sublist _ _)
    exact hsub.filter _

/-- One critical section keeps the history spaced and remembered. -/
theorem Kept.next (hvalid : inner.policy.validate = .ok ()) (hrate : ShortPauses inner) {history : History}
    {turn : Turn} (hsound : history.ledger.Sound inner) (hready : history.ledger.Ready inner turn)
    (h : Kept inner history.ledger.clock history.ledger.state history.dispatched) :
    Kept inner (history.next inner turn).ledger.clock (history.next inner turn).ledger.state
      (history.next inner turn).dispatched := by
  obtain ⟨hnow, hqueue⟩ := hready
  have hopened : Kept inner (history.ledger.clock + turn.elapsed)
      (turn.work.opened inner turn.now history.ledger.state)
      (without turn.work.aborts history.dispatched) :=
    (h.sublist (without_sublist _ _)).mono fun dispatched hmem hd =>
      (hd.later (Nat.le_add_right _ _)).opened hvalid hrate hnow fun _ hid => not_taken_of_mem hmem hid
  cases hwork : turn.work.queues with
  | true =>
    obtain ⟨elapsed, now, closed, work⟩ := turn
    cases work with
    | enqueue sender request =>
      have hsilent : Kept inner (history.ledger.clock + elapsed)
          ((Section.enqueue sender request).run inner closed now history.ledger.state).state
          (without (Section.enqueue sender request).aborts history.dispatched) :=
        hopened.mono fun _ _ hd => hd.same (enqueue_events inner now sender request _)
          (enqueue_pacing inner now sender request _)
      simpa [History.next, Ledger.next, Section.run, Pass.silent, dispatches] using hsilent
    | _ => cases hwork
  | false =>
    have hmoves := @Section.run_moves inner turn.closed (fun _ => True) (fun _ _ _ => trivial) turn.now
      history.ledger.state turn.work hwork
    exact hopened.moves hnow hmoves (hsound.opened_queued turn)

theorem histories_ledger {history : History} (h : (histories inner).Run (fun _ _ => True) history) :
    (ledgers inner).Run (fun _ _ => True) history.ledger := by
  induction h with
  | initial => exact .initial
  | step turn _ enabled _ ih => exact .step turn ih enabled trivial

/-- Paced requests keep their distance. In every run of critical sections, at whatever non-decreasing
true times and with whatever readings that are not ahead of them, two dispatches that a limit with
`max_rps` paces as one group and whose reservations were not taken back are a pause apart. -/
theorem requests_are_paced (hvalid : inner.policy.validate = .ok ()) (hrate : ShortPauses inner)
    {history : History} (hrun : (histories inner).Run (fun _ _ => True) history) {limit : QuotaLimit}
    (hlimit : limit ∈ inner.policy.limits) {rps : Nat} (hrps : limit.maxRps = some rps) :
    history.dispatched.Pairwise (fun earlier later => limit.paces earlier.permit later.permit = true →
      earlier.recorded + inner.durationForRate rps ≤ later.sentAt) := by
  have hkept : Kept inner history.ledger.clock history.ledger.state history.dispatched := by
    induction hrun with
    | initial => exact ⟨fun _ _ _ _ => .nil, fun _ h => nomatch h⟩
    | step turn run enabled _ ih =>
      exact Kept.next hvalid hrate (Ledger.sound (histories_ledger run)) enabled ih
  exact hkept.spaced limit hlimit rps hrps

section Witness

private def twiceASecond : QuotaLimit := { windowSeconds := 60, maxRps := some 2 }

private def pacer : Inner := .plain { enabled := true, limits := [twiceASecond], queueCoalesceMs := 0 }

private def caller : ScheduleRequest := .plain "openai" "key" "gpt"

private def turns : List Turn :=
  [⟨5, 5, undisturbed, .enqueue 0 caller⟩, ⟨0, 5, undisturbed, .enqueue 1 caller⟩,
    ⟨1, 5, undisturbed, .pass 0 caller⟩, ⟨200000000, 9, undisturbed, .abort 7⟩,
    ⟨300000000, 500000005, undisturbed, .pass 1 caller⟩]

private def twoDispatches : History := (histories pacer).replay (histories pacer).initial turns

/-- The pacing table is wiped and replayed between the two dispatches of this run. -/
theorem requests_are_paced_after_abort :
    twoDispatches.dispatched.map (fun dispatched => (dispatched.recorded, dispatched.sentAt)) =
        [(5, 6), (500000005, 500000006)] ∧
      twoDispatches.dispatched.Pairwise (fun earlier later =>
        twiceASecond.paces earlier.permit later.permit = true →
          earlier.recorded + pacer.durationForRate 2 ≤ later.sentAt) := by
  have hrate : ShortPauses pacer := fun rate _ => Nat.div_le_self 1000000000 rate
  have hrun : (histories pacer).Run (fun _ _ => True) twoDispatches :=
    Machine.Run.replay .initial
      ⟨⟨by decide, rfl⟩, trivial, ⟨by decide, rfl⟩, trivial, ⟨by decide, trivial⟩, trivial,
        ⟨by decide, trivial⟩, trivial, ⟨by decide, trivial⟩, trivial, trivial⟩
  exact ⟨by decide, requests_are_paced rfl hrate hrun (List.mem_singleton.mpr rfl) rfl⟩

end Witness

end Kaiion.Scheduling
