import Kaiion.Scheduling.Delay
import Kaiion.Scheduling.Pauses

/-! What critical sections do to the part of the state that readiness looks at, as a list of changes. -/
namespace Kaiion.Scheduling
open Foundation

variable {inner : Inner} {mayOpen : Nat → Prop} {now : Nat} {s t u : State}

/-- Readiness cannot tell the two states apart. -/
structure Alike (s t : State) : Prop where
  events : s.events = t.events
  active : s.active = t.active
  pacing : s.pacing = t.pacing

theorem Alike.refl (s : State) : Alike s s := ⟨rfl, rfl, rfl⟩

theorem Alike.trans (h : Alike s t) (h' : Alike t u) : Alike s u :=
  ⟨h.events.trans h'.events, h.active.trans h'.active, h.pacing.trans h'.pacing⟩

inductive Change where
  | grant (event : UsageEvent)
  | settle (id : Nat) (inputTokens outputTokens : Option Nat)
  | revoke (id : Nat)
  | release (id : Nat)
  | prune (now : Nat)
  deriving DecidableEq

/-- The permit a change is made for. -/
def Change.permit : Change → Option Nat
  | .grant event => some event.id
  | .settle id _ _ | .revoke id | .release id => some id
  | .prune _ => none

def UsageEvent.activeRequest (event : UsageEvent) : ActiveRequest :=
  { provider := event.provider, authScope := event.authScope, model := event.model }

def Change.apply (inner : Inner) (s : State) : Change → State
  | .grant event => updatePacing inner event.request event.inputTokens event.outputTokens event.atTime
      { s with events := s.events ++ [event], active := s.active.insert event.id event.activeRequest }
  | .settle id inputTokens outputTokens =>
    { s with active := s.active.erase id, events := rewriteUsage id inputTokens outputTokens s.events }
  | .revoke id => s.revoke inner id
  | .release id => { s with active := s.active.erase id }
  | .prune now => pruneEvents inner.policy now s

theorem grant_pacing (inner : Inner) (s : State) (event : UsageEvent) (key : PacingKey) :
    ((Change.grant event).apply inner s).pacing key =
      pushBack (s.pacing key) event.atTime (event.pause inner key) := updatePacing_key

def applied (inner : Inner) (s : State) (changes : List Change) : State :=
  changes.foldl (Change.apply inner) s

theorem applied_append (s : State) (before after : List Change) :
    applied inner s (before ++ after) = applied inner (applied inner s before) after :=
  List.foldl_append

/-- A change reads nothing else. -/
theorem Change.apply_alike (h : Alike s t) (change : Change) :
    Alike (change.apply inner s) (change.apply inner t) := by
  obtain ⟨hevents, hactive, hpacing⟩ := h
  cases change with
  | grant event =>
    simp only [Change.apply, updatePacing]
    exact ⟨by rw [hevents], by rw [hactive], by rw [hpacing]⟩
  | settle id inputTokens outputTokens =>
    exact ⟨congrArg (rewriteUsage id inputTokens outputTokens) hevents, congrArg (AList.erase id) hactive, hpacing⟩
  | revoke id =>
    have hkept : (s.retract id).events = (t.retract id).events := congrArg (List.filter _) hevents
    obtain ⟨_, hs⟩ := @revoke_eq inner id s
    obtain ⟨_, ht⟩ := @revoke_eq inner id t
    refine ⟨?_, ?_, funext fun key => ?_⟩
    · rw [Change.apply, Change.apply, hs, ht]
      exact hkept
    · rw [Change.apply, Change.apply, hs, ht]
      exact congrArg (AList.erase id) hactive
    · exact rebuildPacing_key.trans ((congrArg _ hkept).trans rebuildPacing_key.symm)
  | release id => exact ⟨hevents, congrArg (AList.erase id) hactive, hpacing⟩
  | prune now =>
    simp only [Change.apply, pruneEvents]
    exact ⟨by rw [hevents], hactive, by rw [hpacing]⟩

theorem applied_alike (h : Alike s t) (changes : List Change) :
    Alike (applied inner s changes) (applied inner t changes) := by
  induction changes generalizing s t with
  | nil => exact h
  | cons change changes ih => exact ih (change.apply_alike h)

/-- The reservation of a permit that was sent at a reading. -/
def reservationOf (now : Nat) : ScheduleOutcome → Option UsageEvent
  | .dispatch permit => permit.reservationId.map (fun id =>
      { id, atTime := now, provider := permit.provider, authScope := permit.authScope, model := permit.model
        inputTokens := permit.inputTokens, outputTokens := permit.outputTokens })
  | _ => none

def reservations (now : Nat) (sent : List (Nat × ScheduleOutcome)) : List UsageEvent :=
  sent.filterMap (fun entry => reservationOf now entry.2)

/-- What a section does for the permit it is about. -/
def Section.own : Section → List Change
  | .complete permit inputTokens outputTokens _ =>
    permit.reservationId.toList.map (fun id => .settle id inputTokens outputTokens)
  | .abort id => [.revoke id]
  | .dropLease id => [.release id]
  | _ => []

/-- The changes of a section before it looks at the queue. -/
def Section.opening (now : Nat) (work : Section) : List Change :=
  work.own ++ if work.prunes then [.prune now] else []

def Section.changes (inner : Inner) (closed : Nat → Closings) (now : Nat) (s : State) (work : Section) :
    List Change :=
  work.opening now ++ (reservations now (work.run inner closed now s).sent).map .grant

theorem Section.edit_alike (inner : Inner) (now : Nat) (s : State) (work : Section) :
    Alike (work.edit inner now s) (applied inner s work.own) := by
  cases work with
  | enqueue | pass | abort | dropLease => exact .refl _
  | expire id | dropPending id =>
    exact ⟨by simp [Section.edit, State.withdraw, Section.own, applied],
      by simp [Section.edit, State.withdraw, Section.own, applied],
      by simp [Section.edit, State.withdraw, Section.own, applied]⟩
  | complete permit inputTokens outputTokens cacheReadHit =>
    obtain ⟨sessions, h⟩ := settle_eq now permit inputTokens outputTokens cacheReadHit s
    rw [Section.edit, h, Section.own]
    cases permit.reservationId with
    | none => exact ⟨rfl, rfl, rfl⟩
    | some id => exact ⟨rfl, rfl, rfl⟩

theorem Section.opened_alike (inner : Inner) (now : Nat) (s : State) (work : Section) :
    Alike (work.opened inner now s) (applied inner s (work.opening now)) := by
  have hedit := work.edit_alike inner now s
  unfold Section.opened Section.opening
  rw [applied_append]
  split
  · exact (Change.prune now).apply_alike hedit
  · exact hedit

/-- The timers that a reservation pushes back have run out. -/
structure Admits (inner : Inner) (now : Nat) (s : State) (event : UsageEvent) : Prop where
  atTime : event.atTime = now
  clear : ∀ key pause, event.pause inner key = some pause → ∀ instant, s.pacing key = some instant → instant ≤ now

/-- The same of one reservation after the other. -/
def Admitted (inner : Inner) (now : Nat) : State → List UsageEvent → Prop
  | _, [] => True
  | s, event :: events => Admits inner now s event ∧ Admitted inner now ((Change.grant event).apply inner s) events

theorem Admitted.alike {events : List UsageEvent} (h : Admitted inner now t events) (halike : Alike s t) :
    Admitted inner now s events := by
  induction events generalizing s t with
  | nil => trivial
  | cons event events ih =>
    obtain ⟨⟨htime, hclear⟩, hrest⟩ := h
    exact ⟨⟨htime, fun key pause hpause => halike.pacing ▸ hclear key pause hpause⟩,
      ih hrest ((Change.grant event).apply_alike halike)⟩

section Pauses
variable {limit : QuotaLimit} {inputTokens outputTokens pause : Nat}

private theorem tokenPause_some {cap : Option Nat} {tokens : Nat}
    (h : limit.tokenPause inner cap tokens = some pause) :
    ∃ amount, cap = some amount ∧ 0 < tokens ∧ inner.durationForTokens tokens limit.windowSeconds amount = pause := by
  obtain ⟨amount, hcap, hpause⟩ := Option.bind_eq_some_iff.mp h
  by_cases htokens : 0 < tokens
  · rw [if_pos htokens] at hpause
    exact ⟨amount, hcap, htokens, Option.some.inj hpause⟩
  · rw [if_neg htokens] at hpause
    cases hpause

/-- A limit paces a request by the metrics that cost it a pause. -/
private theorem mem_pacedMetrics {metric : PaceMetric}
    (h : limit.pause inner inputTokens outputTokens metric = some pause) :
    metric ∈ pacedMetrics limit inputTokens outputTokens := by
  cases metric with
  | requests =>
    obtain ⟨rps, hrps, -⟩ := Option.map_eq_some_iff.mp h
    simp [pacedMetrics, hrps]
  | inputTokens | outputTokens | totalTokens =>
    obtain ⟨cap, hcap, htokens, -⟩ := tokenPause_some h
    simp [pacedMetrics, tokenMetrics, hcap, htokens]

/-- A request that is ready is admitted. -/
theorem Pending.Clear.admits {pending : Pending} (h : pending.Clear inner s now) (id : Nat) :
    Admits inner now s (pending.event id now) := by
  refine ⟨rfl, fun key pause hpause instant hinstant => ?_⟩
  obtain ⟨limit, hlimit, hpause⟩ := Option.bind_eq_some_iff.mp hpause
  split at hpause
  next hkey =>
    have room := h.room (limit, key.ruleIndex) (List.mk_mem_zipIdx_iff_getElem?.mpr hlimit) hkey.1
    rw [hkey.2] at hinstant
    exact room.paced instant (List.mem_filterMap.mpr ⟨key.metric, mem_pacedMetrics hpause, hinstant⟩)
  · cases hpause

end Pauses

theorem reservations_cons (now sender : Nat) (outcome : ScheduleOutcome) (sent : List (Nat × ScheduleOutcome)) :
    reservations now ((sender, outcome) :: sent) = (reservationOf now outcome).toList ++ reservations now sent := by
  unfold reservations
  cases h : reservationOf now outcome <;> simp [h]

private theorem grant_alike (id : Nat) (pending : Pending) :
    Alike (s.grant inner id now pending) ((Change.grant (pending.event id now)).apply inner s) := by
  refine ⟨grant_events id pending, grant_active id pending, ?_⟩
  simp only [State.grant, Change.apply, updatePacing, State.reserve, removePending_pacing]
  rfl

/-- From one state to the other these reservations are made, each admitted and for a queued request. -/
structure Reserves (inner : Inner) (now : Nat) (s t : State) (events : List UsageEvent) : Prop where
  alike : Alike t (applied inner s (events.map .grant))
  admitted : Admitted inner now s events
  distinct : (events.map UsageEvent.id).Nodup
  queued : ∀ event ∈ events, event.id ∈ s.pending
  gone : ∀ event ∈ events, event.id ∉ t.pending

theorem Reserves.none (s : State) : Reserves inner now s s [] :=
  ⟨.refl s, trivial, .nil, fun _ h => (nomatch h), fun _ h => (nomatch h)⟩

/-- What readiness does not see may happen before. -/
private theorem Reserves.after {events : List UsageEvent} (h : Reserves inner now u t events) (halike : Alike s u)
    (hpending : u.pending.entries.Sublist s.pending.entries) : Reserves inner now s t events where
  alike := h.alike.trans (applied_alike ⟨halike.events.symm, halike.active.symm, halike.pacing.symm⟩ _)
  admitted := h.admitted.alike halike
  distinct := h.distinct
  queued event hevent := (hpending.map Sigma.fst).subset (h.queued event hevent)
  gone := h.gone

private theorem Reserves.grant {events : List UsageEvent} {id : Nat} {pending : Pending}
    (h : Reserves inner now (s.grant inner id now pending) t events) (hid : id ∈ s.pending) (hgone : id ∉ t.pending)
    (hadmits : Admits inner now s (pending.event id now)) :
    Reserves inner now s t (pending.event id now :: events) where
  alike := h.alike.trans (applied_alike (grant_alike id pending) _)
  admitted := by
    obtain ⟨hevents, hactive, hpacing⟩ := @grant_alike inner now s id pending
    exact ⟨hadmits, h.admitted.alike ⟨hevents.symm, hactive.symm, hpacing.symm⟩⟩
  distinct := by
    refine List.nodup_cons.mpr ⟨fun hmem => ?_, h.distinct⟩
    obtain ⟨event, hevent, heq⟩ := List.mem_map.mp hmem
    have hother := h.queued event hevent
    rw [grant_pending, AList.mem_erase] at hother
    exact hother.1 heq
  queued event hevent := by
    rcases List.mem_cons.mp hevent with rfl | hevent
    · exact hid
    · have hother := h.queued event hevent
      rw [grant_pending, AList.mem_erase] at hother
      exact hother.2
  gone event hevent := by
    rcases List.mem_cons.mp hevent with rfl | hevent
    · exact hgone
    · exact h.gone event hevent

/-- All that the moves of a pass do is to make reservations. -/
theorem Moves.reserves {returned : List Nat} {sent : List (Nat × ScheduleOutcome)}
    (h : Moves inner mayOpen now s sent returned t) (hfresh : s.Fresh)
    (henabled : s.pending.entries ≠ [] → inner.policy.enabled = true) :
    Reserves inner now s t (reservations now sent) := by
  have queued : ∀ {u : State} {id : Nat} {pending : Pending}, u.pending.lookup id = some pending →
      u.pending.entries ≠ [] := fun found => List.ne_nil_of_mem (AList.mem_lookup_iff.mp found)
  have erased : ∀ (u : State) (id : Nat), (u.removePending id).pending.entries.Sublist u.pending.entries := by
    intro u id
    rw [removePending_pending]
    exact erase_entries_sublist id _
  induction h with
  | stop s => exact .none s
  | calm _ _ ih => exact (ih hfresh henabled).after ⟨rfl, rfl, rfl⟩ (.refl _)
  | @discard s t _ _ id pending found _ ih =>
    refine (ih (fresh_of_removed hfresh id) fun _ => henabled (queued found)).after ?_ (erased s id)
    exact ⟨(removePending_events s id).symm, (removePending_active s id).symm, (removePending_pacing s id).symm⟩
  | @refuse s t _ _ id pending found outcome live _ ih =>
    have hnone : reservationOf now outcome = none := by
      cases outcome with
      | dispatch permit => exact absurd rfl (live permit)
      | recommendBatch | retryExhausted => rfl
    rw [reservations_cons, hnone]
    refine (ih (fresh_of_removed hfresh id) fun _ => henabled (queued found)).after ?_ (erased s id)
    exact ⟨(removePending_events s id).symm, (removePending_active s id).symm, (removePending_pacing s id).symm⟩
  | @grant s t _ _ id pending found ready _ rest ih =>
    have hen := henabled (queued found)
    refine (ih (fresh_of_grant hfresh) fun _ => hen).grant (mem_of_lookup found) (fun hmem => ?_)
      ((clear_of_readyAt hen ready).admits id)
    have hleft := (rest.sublist.map Sigma.fst).subset hmem
    rw [grant_pending] at hleft
    exact (AList.mem_erase.mp hleft).1 rfl
  | @undo s t _ _ id pending found _ ih =>
    obtain ⟨hevents, hactive, hpacing⟩ := @undo_trace pending now s id hfresh (mem_of_lookup found)
    refine (ih (fresh_of_undo hfresh (mem_of_lookup found)) fun _ => henabled (queued found)).after
      ⟨hevents.symm, hactive.symm, hpacing.symm⟩ ?_
    rw [undo_pending]
    exact erase_entries_sublist id _

private theorem enqueue_alike (sender : Nat) (request : ScheduleRequest) (s : State) :
    Alike (s.enqueue inner now sender request) s := by
  unfold State.enqueue
  split
  · exact .refl s
  · exact ⟨rfl, rfl, rfl⟩

/-- An opened section makes the reservations of the permits it sends, and does no more. -/
theorem Section.reserves (closed : Nat → Closings) (work : Section)
    (hfresh : (work.opened inner now s).Fresh)
    (henabled : (work.opened inner now s).pending.entries ≠ [] → inner.policy.enabled = true) :
    Reserves inner now (work.opened inner now s) (work.run inner closed now s).state
      (reservations now (work.run inner closed now s).sent) := by
  cases hwork : work.queues with
  | true =>
    cases work with
    | enqueue sender request =>
      exact ⟨enqueue_alike sender request _, trivial, .nil, fun _ h => (nomatch h), fun _ h => (nomatch h)⟩
    | _ => cases hwork
  | false =>
    have hmoves := @Section.run_moves inner closed (fun _ => True) (fun _ _ _ => trivial) now s work hwork
    exact hmoves.reserves hfresh henabled

/-- A section makes its changes. -/
theorem Section.run_alike (closed : Nat → Closings) (work : Section)
    (hfresh : (work.opened inner now s).Fresh)
    (henabled : (work.opened inner now s).pending.entries ≠ [] → inner.policy.enabled = true) :
    Alike (work.run inner closed now s).state (applied inner s (work.changes inner closed now s)) := by
  unfold Section.changes
  rw [applied_append]
  exact (work.reserves closed hfresh henabled).alike.trans
    (applied_alike (work.opened_alike inner now s) _)

end Kaiion.Scheduling
