import Kaiion.Scheduling.Slots

/-! A request that is not dispatched leaves no reservation in the usage ledger, in runs in which no
receiver is dropped while a permit waits in its channel. -/
namespace Kaiion.Scheduling
open Foundation

variable {inner : Inner} {sys : Sys}

/-- The call is over and did not return a permit. -/
def Phase.refused : Phase → Bool
  | .closed _ => true
  | .returned (.dispatch _) => false
  | .returned _ => true
  | _ => false

/-- The call has a permit: it waits in its channel, or was returned. -/
inductive Call.Permitted (call : Call) : Prop where
  | sent (permit : SchedulePermit) (receiver : call.phase.receiver = true)
      (channel : call.channel = some (.dispatch permit))
  | returned (permit : SchedulePermit) (received : call.phase = .returned (.dispatch permit))

/-- Calls have the ids of their channels, and every recorded event is for a call with a permit. -/
structure Sys.Booked (sys : Sys) : Prop where
  ids : ∀ c < sys.issued, (sys.calls c).id = c
  events : ∀ event ∈ sys.state.events, (sys.calls event.id).Permitted

/-- No receiver is dropped while a permit waits in its channel. -/
def receivesAll (sys : Sys) : Action → Prop
  | .close c _ => leaseIn (sys.calls c).channel = []
  | _ => True

instance (sys : Sys) : DecidablePred (receivesAll sys)
  | .close _ _ => inferInstanceAs (Decidable (_ = _))
  | .tick _ | .bypass _ | .enqueue _ _ | .read _ | .pass _ _ _ | .receive _ _ | .poll _ _ _ | .check _ _ _
  | .arm _ _ _ | .wake _ _ | .expire _ | .cancel _ | .dropPermit _ | .settle _ | .finish _ _
  | .cancelSettle _ | .cleanLease _ _ | .cleanPending _ _ => .isTrue trivial

theorem Call.Permitted.not_refused {call : Call} (h : call.Permitted) : call.phase.refused = false := by
  cases h with
  | sent permit receiver channel =>
    cases hphase : call.phase <;> rw [hphase] at receiver <;> first | rfl | cases receiver
  | returned permit received => rw [received]; rfl

/-- Calls and events that were there before keep the books. -/
private theorem Sys.Booked.transfer (h : sys.Booked) {next : Sys} (hissued : next.issued = sys.issued)
    (hids : ∀ c, (next.calls c).id = (sys.calls c).id)
    (hevents : ∀ event ∈ next.state.events, ∃ old ∈ sys.state.events, old.id = event.id)
    (hpermitted : ∀ c, (sys.calls c).Permitted → (next.calls c).Permitted) : next.Booked := by
  refine ⟨fun c hc => (hids c).trans (h.ids c (hissued ▸ hc)), fun event hevent => ?_⟩
  obtain ⟨old, hold, heq⟩ := hevents event hevent
  exact hpermitted _ (heq ▸ h.events old hold)

/-- A section records events only for permits that reach a channel. -/
private theorem Sys.Booked.enter (h : sys.Booked) (howned : sys.Owned) (hwired : sys.Wired) {work : Section}
    (hwork : work.queues = false) (closed : Nat → Closings) (now : Nat) (settling : List Settlement)
    (leaseCleanups pendingCleanups : List Nat) :
    (Sys.enter inner closed now work { sys with settling, leaseCleanups, pendingCleanups }).Booked := by
  have hmoves := @Section.run_moves inner (sys.closings closed) (fun c => (sys.calls c).phase.receiver = true)
    (fun n c hopen => sys.receiver_of_open hopen) now sys.state work hwork
  have hsub := work.opened_pending inner now sys.state
  refine ⟨h.ids, fun event hevent => ?_⟩
  rcases hmoves.recorded hevent with hevent | hgranted
  · obtain ⟨old, hold, heq, -⟩ := Section.edit_events (Section.opened_events hevent)
    cases h.events old hold with
    | sent permit receiver channel =>
      rw [heq] at receiver channel
      exact .sent permit receiver (hwired.keeps hsub hmoves channel)
    | returned permit received => exact .returned permit (heq ▸ received)
  · obtain ⟨c, permit, hsent, hreserves⟩ := mem_granted.mp hgranted
    obtain ⟨hreceiver, id, pending, found, hsender, rfl⟩ := hmoves.granted hsent
    -- The permit goes into the channel that has its id.
    obtain rfl : id = event.id := Option.some.inj hreserves
    obtain rfl : c = event.id :=
      hsender.symm.trans (howned.queued _ pending (lookup_of_sublist hsub found)).1
    have hnodup := (List.nodup_append.mp (hwired.used hsub hmoves).1).1
    exact .sent _ hreceiver (deliver_of_mem hnodup hsent sys.calls)

/-- A call moves on with its receiver. -/
private theorem Sys.Booked.moveTo (h : sys.Booked) (c : Nat) {phase : Phase} (hreceiver : phase.receiver = true)
    (hbefore : (sys.calls c).phase.receiver = true) : (sys.moveTo c phase).Booked := by
  refine h.transfer rfl (fun other => ?_) (fun event hevent => ⟨event, hevent, rfl⟩) (fun other hother => ?_)
  · change (if other = c then _ else sys.calls other).id = _
    split
    next heq => rw [heq]
    · rfl
  · change (if other = c then _ else sys.calls other).Permitted
    split
    next heq =>
      subst heq
      cases hother with
      | sent permit _ channel => exact .sent permit hreceiver channel
      | returned permit received =>
        rw [received] at hbefore
        cases hbefore
    · exact hother

private theorem Sys.Booked.queue (h : sys.Booked) (howned : sys.Owned) (request : ScheduleRequest)
    (started : Nat) : (sys.queue inner request started).Booked := by
  have hpruned : ∀ event ∈ (pruneEvents inner.policy sys.clock sys.state).events, event ∈ sys.state.events :=
    fun event hevent => (List.dropWhile_sublist _).subset hevent
  cases hfull : queueFull inner request (pruneEvents inner.policy sys.clock sys.state) with
  | true =>
    rw [Sys.queue_full started hfull]
    exact ⟨h.ids, fun event hevent => h.events event (hpruned event hevent)⟩
  | false =>
    rw [Sys.queue_room started hfull, enqueue_room hfull]
    refine ⟨fun c hc => ?_, fun event hevent => ?_⟩
    · change (if c = sys.issued then _ else sys.calls c).id = c
      split
      next heq =>
        rw [heq]
        exact howned.numbered
      next hne => exact h.ids c (Nat.lt_of_le_of_ne (Nat.le_of_lt_succ hc) hne)
    · have hevent := hpruned event hevent
      change (if event.id = sys.issued then _ else sys.calls event.id).Permitted
      rw [if_neg ((howned.unused sys.issued (.inr (Nat.le_refl _))).events event hevent)]
      exact h.events event hevent

/-- A call empties its channel and is over, with the permit that was in it if there was one. -/
private theorem Sys.Booked.finishCall (h : sys.Booked) (c : Nat) (phase : Phase)
    (hpermit : ∀ permit, (sys.calls c).channel = some (.dispatch permit) → phase = .returned (.dispatch permit))
    (hbefore : (sys.calls c).phase.receiver = true) :
    (sys.update c { sys.calls c with channel := none, phase }).Booked := by
  refine h.transfer rfl (fun other => ?_) (fun event hevent => ⟨event, hevent, rfl⟩) (fun other hother => ?_)
  · change (if other = c then _ else sys.calls other).id = _
    split
    next heq => rw [heq]
    · rfl
  · change (if other = c then _ else sys.calls other).Permitted
    split
    next heq =>
      subst heq
      cases hother with
      | sent permit _ channel => exact .returned permit (hpermit permit channel)
      | returned permit received =>
        rw [received] at hbefore
        cases hbefore
    · exact hother

private theorem Phase.receiver_of_cancellable {phase : Phase} (h : phase.cancellable = true) :
    phase.receiver = true := by
  cases phase <;> first | rfl | cases h

private theorem Phase.receiver_of_receiving {phase : Phase} (h : phase.receiving = true) :
    phase.receiver = true := by
  cases phase <;> first | rfl | cases h

/-- Every step keeps the books, unless it drops a permit with its channel. -/
theorem Sys.Booked.next (h : sys.Booked) (howned : sys.Owned) (hwired : sys.Wired) {action : Action}
    (henabled : sys.Enabled inner action) (hallowed : receivesAll sys action) :
    (sys.next inner action).Booked := by
  have receiver : ∀ {c : Nat} {phase : Phase}, (sys.calls c).phase = phase → phase.receiver = true →
      (sys.calls c).phase.receiver = true := fun hphase hreceiver => hphase ▸ hreceiver
  cases action with
  | tick | bypass | dropPermit | settle | cancelSettle => exact ⟨h.ids, h.events⟩
  | enqueue request started => exact h.queue howned _ _
  | read c => exact h.moveTo c rfl (receiver henabled rfl)
  | poll c now sleepFor => exact h.moveTo c rfl (receiver henabled.1 rfl)
  | arm c now sleepFor => exact h.moveTo c rfl (receiver henabled rfl)
  | wake c timer => exact h.moveTo c rfl (receiver henabled.1 rfl)
  | check c now sleepFor =>
    exact h.moveTo c (afterCheck_receiver c now sleepFor) (receiver henabled rfl)
  | pass c now closed =>
    exact (h.enter howned hwired rfl closed now _ _ _).moveTo c (afterPass_receiver closed c now)
      (receiver henabled rfl)
  | expire c =>
    exact (h.enter howned hwired rfl _ sys.clock _ _ _).moveTo c rfl (receiver henabled rfl)
  | receive c outcome =>
    have hfinished := h.finishCall c (.returned outcome)
      (fun permit hchannel => by rw [Option.some.inj (henabled.2.symm.trans hchannel)])
      (Phase.receiver_of_receiving henabled.1)
    cases outcome <;> exact ⟨hfinished.ids, hfinished.events⟩
  | cancel c =>
    have hmoved : (sys.moveTo c (.closing none)).Booked :=
      h.moveTo c rfl (Phase.receiver_of_cancellable henabled)
    exact ⟨hmoved.ids, hmoved.events⟩
  | close c reply =>
    have hfinished := h.finishCall c (.closed reply) (fun permit hchannel => ?_) (receiver henabled rfl)
    · exact ⟨hfinished.ids, hfinished.events⟩
    · have hnone : leaseIn (sys.calls c).channel = [] := hallowed
      have hid := howned.channels c permit hchannel
      simp [hchannel, leaseIn, leaseOf, hid] at hnone
  | finish settlement closed => exact h.enter howned hwired settlement.work_queues closed _ _ _ _
  | cleanLease id closed => exact h.enter howned hwired rfl closed sys.clock _ _ _
  | cleanPending id closed => exact h.enter howned hwired rfl closed sys.clock _ _ _

/-- As long as no receiver is dropped with a permit in its channel, a call that is over without a
permit has nothing in the usage ledger, even before its clean-up has run. -/
theorem refused_leaves_no_reservation (hrun : (scheduler inner).Run receivesAll sys)
    (hacquires : sys.issued < 2 ^ 64) (c : Nat) (hqueued : c < sys.issued)
    (hrefused : (sys.calls c).phase.refused = true) :
    ∀ event ∈ sys.state.events, event.id ≠ (sys.calls c).id := by
  have hbooked : sys.Booked := by
    clear hqueued hrefused
    induction hrun with
    | initial => exact ⟨fun c hc => (nomatch hc), fun _ hevent => (nomatch hevent)⟩
    | step action run henabled hallowed ih =>
      have hbound := Nat.lt_of_le_of_lt (Sys.issued_le inner _ action) hacquires
      exact (ih hbound).next (Sys.owned run hbound) (Sys.wired run) henabled hallowed
  intro event hevent heq
  have hpermitted := hbooked.events event hevent
  rw [heq, hbooked.ids c hqueued] at hpermitted
  rw [hpermitted.not_refused] at hrefused
  cases hrefused

section Witness

private def oneRequest : Inner := .plain
  { enabled := true, limits := [{ maxRequests := some 1, windowSeconds := 60 }], queueCoalesceMs := 0 }

private def pair : List Action :=
  [.enqueue (.plain "openai" "key" "gpt") 0, .read 0, .enqueue (.plain "openai" "key" "gpt") 0, .read 1]

/-- A caller gives up while it waits for the lock, before anyone has sent it a permit. -/
private def early : Sys :=
  (scheduler oneRequest).replay .initial (pair ++ [.cancel 0, .close 0 none, .cleanPending 0 undisturbed])

theorem refused_leaves_no_reservation_early :
    early.state.events.map UsageEvent.id = [1] ∧
      early.state.events.all (fun event => event.id ≠ (early.calls 0).id) = true := by
  have hnone := refused_leaves_no_reservation (.replay .initial (by decide) : (scheduler oneRequest).Run
    receivesAll early) (by decide) 0 (by decide) (by decide)
  exact ⟨by decide, List.all_eq_true.mpr fun event hevent => decide_eq_true (hnone event hevent)⟩

/-- A caller gives up while it waits for the lock, after another caller's pass has sent it a permit. -/
private def late : List Action :=
  pair ++ [.pass 1 0 undisturbed, .cancel 0, .close 0 none, .cleanLease 0 undisturbed, .cleanPending 0 undisturbed]

/-- Its clean-ups have run, and the only request of the minute is still taken by its reservation. -/
theorem undelivered_permit_keeps_its_reservation :
    (scheduler oneRequest).Follows (fun _ _ => True) .initial late ∧
      let sys := (scheduler oneRequest).replay .initial late
      (sys.calls 0).phase = .closed none ∧ sys.leaseCleanups = [] ∧ sys.pendingCleanups = [] ∧
        sys.state.active.keys = [] ∧ sys.state.events.map UsageEvent.id = [(sys.calls 0).id] ∧
        sys.state.pending.keys = [1] := by
  decide

end Witness
end Kaiion.Scheduling
