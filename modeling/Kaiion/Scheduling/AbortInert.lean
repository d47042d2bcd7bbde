import Kaiion.Scheduling.Coupled
import Kaiion.Scheduling.PacedRate

/-! Aborts and everyone else. An abort clears the pacing table and replays the ledger into it, which takes
back the pauses of the aborted permit and nothing else as long as no completion has rewritten an event that
is replayed. -/
namespace Kaiion.Scheduling
open Foundation

variable {inner : Inner} {p : Nat} {granted : List UsageEvent} {now clock time : Nat} {s t u : State}

/-- What is out of every window and the timers that have run out may differ. -/
structure Agrees (inner : Inner) (clock : Nat) (s u : State) : Prop where
  events : s.events.filter (fun event => clock - event.atTime < maxWindow inner.policy) =
    u.events.filter (fun event => clock - event.atTime < maxWindow inner.policy)
  active : s.active = u.active
  pacing : ∀ key, max ((s.pacing key).getD 0) clock = max ((u.pacing key).getD 0) clock

theorem Agrees.alike (h : Agrees inner clock t u) (halike : Alike s t) : Agrees inner clock s u where
  events := halike.events ▸ h.events
  active := halike.active.trans h.active
  pacing := halike.pacing ▸ h.pacing

section Readiness
variable {limit : QuotaLimit} {request : ScheduleRequest} {inputTokens outputTokens : Nat}

private theorem Agrees.counted (h : Agrees inner clock s u) (request : ScheduleRequest)
    (hlimit : fromSecs limit.windowSeconds ≤ maxWindow inner.policy) (hle : clock ≤ time) :
    counted limit request time s.events = counted limit request time u.events := by
  have hrecent : ∀ events, Scheduling.counted limit request time events = Scheduling.counted limit request time
      (events.filter (fun event => clock - event.atTime < maxWindow inner.policy)) := by
    intro events
    unfold Scheduling.counted
    rw [List.filter_filter]
    refine List.filter_congr fun event _ => ?_
    cases hmatches : eventMatches limit request event time with
    | false => rfl
    | true =>
      have hwindow := ((eventMatches_iff event).mp hmatches).1
      exact (decide_eq_true (by omega)).symm
  rw [hrecent s.events, hrecent u.events, h.events]

private theorem Agrees.quotaReadiness (h : Agrees inner clock s u) (hle : clock ≤ time)
    {limits : List (QuotaLimit × Nat)}
    (hlimits : ∀ entry ∈ limits, fromSecs entry.1.windowSeconds ≤ maxWindow inner.policy) {ready : Nat}
    (hready : clock ≤ ready) : quotaReadiness s request inputTokens outputTokens time limits ready =
      quotaReadiness u request inputTokens outputTokens time limits ready := by
  induction limits generalizing ready with
  | nil => rfl
  | cons entry limits ih =>
    obtain ⟨limit, index⟩ := entry
    have hrest := fun entry hentry => hlimits entry (List.mem_cons_of_mem _ hentry)
    have hcounted := h.counted request (hlimits (limit, index) List.mem_cons_self) hle
    unfold Scheduling.counted at hcounted
    unfold Scheduling.quotaReadiness
    rw [hcounted]
    split
    · exact ih hrest hready
    · split
      · rfl
      · dsimp only
        split
        · rfl
        · have hbound : ∀ (items : List Nat) start, clock ≤ start → clock ≤ items.foldl max start := by
            intro items start hstart
            exact List.foldlRecOn (motive := fun last => clock ≤ last) items max hstart
              fun last hlast item _ => Nat.le_trans hlast (Nat.le_max_left _ _)
          rw [List.foldl_append, List.foldl_append, pacedInstants,
            foldl_max_congr (fun metric => h.pacing _) _ (hbound _ _ hready)]
          exact ih hrest (hbound _ _ (hbound _ _ hready))

/-- Readiness is the same from that instant on. -/
theorem Agrees.readiness (h : Agrees inner clock s u) (hle : clock ≤ time) :
    readiness inner.policy s request inputTokens outputTokens time =
      readiness inner.policy u request inputTokens outputTokens time := by
  have hlimits : ∀ entry ∈ inner.policy.limits.zipIdx, fromSecs entry.1.windowSeconds ≤ maxWindow inner.policy :=
    fun entry hentry => window_le_maxWindow (List.mem_of_getElem? (List.mk_mem_zipIdx_iff_getElem?.mp hentry))
  unfold Scheduling.readiness concurrencyBlocked
  rw [h.quotaReadiness hle hlimits hle, h.active]

end Readiness

theorem Agrees.prune (h : Agrees inner clock s u) (hnow : now ≤ clock) :
    Agrees inner clock ((Change.prune now).apply inner s) ((Change.prune now).apply inner u) where
  events := (pruneEvents_recent hnow s).trans (h.events.trans (pruneEvents_recent hnow u).symm)
  active := h.active
  pacing key := by
    have hpruned : ∀ s : State, max ((((Change.prune now).apply inner s).pacing key).getD 0) clock =
        max ((s.pacing key).getD 0) clock := by
      intro s
      cases hinstant : s.pacing key with
      | none =>
        rw [prune_pacing, hinstant, Option.filter_none]
      | some instant =>
        rcases pruned_timer inner now hinstant with hkept | ⟨hgone, hover, -⟩
        · rw [hkept]
        · rw [hgone, Option.getD_none, Option.getD_some]
          omega
    rw [hpruned, hpruned, h.pacing]

/-- A reservation made when its timers have run out. -/
theorem Agrees.grant {event : UsageEvent} (h : Agrees inner clock s u) (hadmits : Admits inner clock s event) :
    Agrees inner clock ((Change.grant event).apply inner s) ((Change.grant event).apply inner u) where
  events := by
    change (s.events ++ [event]).filter _ = (u.events ++ [event]).filter _
    rw [List.filter_append, List.filter_append, h.events]
  active := by
    change s.active.insert event.id event.activeRequest = u.active.insert event.id event.activeRequest
    rw [h.active]
  pacing key := by
    rw [grant_pacing, grant_pacing, hadmits.atTime]
    have hsame := h.pacing key
    cases hpause : event.pause inner key with
    | none => exact hsame
    | some pause =>
      have hclear := hadmits.clear key pause hpause
      have hclear' : ∀ instant, u.pacing key = some instant → instant ≤ clock := by
        intro instant hinstant
        rw [hinstant, Option.getD_some] at hsame
        cases hs : s.pacing key with
        | none =>
          rw [hs, Option.getD_none] at hsame
          omega
        | some other =>
          rw [hs, Option.getD_some] at hsame
          have hover := hclear other hs
          omega
      rw [pushBack_of_le hclear, pushBack_of_le hclear']

theorem Agrees.grants {events : List UsageEvent} (h : Agrees inner clock s u)
    (hadmitted : Admitted inner clock s events) (hothers : ∀ event ∈ events, event.id ≠ p) :
    Agrees inner clock (applied inner s (events.map .grant)) (applied inner u (others p (events.map .grant))) := by
  induction events generalizing s u with
  | nil => exact h
  | cons event events ih =>
    obtain ⟨hadmits, hrest⟩ := hadmitted
    rw [List.map_cons, others_grant_of_ne (hothers event List.mem_cons_self)]
    exact ih (h.grant hadmits) hrest fun other hother => hothers other (List.mem_cons_of_mem _ hother)

/-- The timer of a state shows nothing that lies ahead but what the other state knows of. -/
private theorem Tracks.timer_le {key : PacingKey} (hs : Tracks inner granted clock s) (ht : Tracks inner granted clock t)
    (hknown : ∀ event ∈ s.events, ∀ pause, reservedPause inner granted key event = some pause →
      event ∈ t.events ∨ event.atTime + pause ≤ clock) :
    max ((s.pacing key).getD 0) clock ≤ max ((t.pacing key).getD 0) clock := by
  cases hinstant : s.pacing key with
  | none =>
    rw [Option.getD_none]
    omega
  | some instant =>
    rw [Option.getD_some]
    rcases hs.bounded key instant hinstant with hover | ⟨event, hevent, pause, hpause, rfl⟩
    · omega
    · rcases hknown event hevent pause hpause with hmem | hover
      · rcases ht.reached event hmem key pause hpause with ⟨later, hlater, hle⟩ | hold
        · rw [hlater, Option.getD_some]
          omega
        · omega
      · omega

/-- What the abort of `p` leaves is what there is without `p`. -/
theorem Paired.revoke (h : Paired inner p granted clock s u) (hserved : Served inner granted clock s)
    (hreserved : Unrewritten inner granted p s) :
    Agrees inner clock (s.revoke inner p) u where
  events := by
    have hids := h.tracks.ids
    have hsub : u.events.Sublist (s.revoke inner p).events := by
      have hothers : u.events.filter (fun event => event.id ≠ p) = u.events :=
        List.filter_eq_self.mpr fun event hevent => decide_eq_true (h.coupled.others event hevent)
      rw [revoke_events, ← hothers]
      exact h.coupled.events.filter _
    have hdistinct : (s.revoke inner p).events.Nodup := by
      rw [revoke_events]
      exact (List.Nodup.of_map _ hids).sublist List.filter_sublist
    refine ((hsub.filter _).eq_of_length_le (List.subperm_of_subset (hdistinct.sublist List.filter_sublist)
      fun event hevent => ?_).length_le).symm
    obtain ⟨hmem, hrecent⟩ := List.mem_filter.mp hevent
    obtain ⟨hold, hne⟩ := mem_revoke hmem
    refine List.mem_filter.mpr ⟨(h.coupled.kept event hold hne).resolve_right fun hexpired => ?_, hrecent⟩
    rw [decide_eq_true_eq] at hrecent
    omega
  active := (revoke_active inner p s).trans h.coupled.active.symm
  pacing key := by
    have hrevoked : Tracks inner granted clock (s.revoke inner p) := h.tracks.revoke hreserved
    refine Nat.le_antisymm (hrevoked.timer_le h.without fun event hevent pause hpause => ?_)
      (h.without.timer_le hrevoked fun event hevent pause hpause => .inl ?_)
    · obtain ⟨hmem, hne⟩ := mem_revoke hevent
      exact (h.coupled.kept event hmem hne).imp_right (hserved event hmem key pause hpause)
    · exact mem_revoke_of_ne (h.coupled.events.subset hevent) (h.coupled.others event hevent)

/-- A key at which the aborted permit cost no pause shows what it did. -/
theorem Tracks.revoke_pacing_of_none {key : PacingKey} (h : Tracks inner granted clock s)
    (hreserved : Unrewritten inner granted p s)
    (hnone : ∀ event ∈ granted, event.id = p → event.pause inner key = none) :
    max (((s.revoke inner p).pacing key).getD 0) clock = max ((s.pacing key).getD 0) clock := by
  have hrevoked : Tracks inner granted clock (s.revoke inner p) := h.revoke hreserved
  refine Nat.le_antisymm (hrevoked.timer_le h fun event hevent _ _ => .inl (mem_revoke hevent).1)
    (h.timer_le hrevoked fun event hevent pause hpause => .inl (mem_revoke_of_ne hevent fun heq => ?_))
  obtain ⟨other, hother, hcost⟩ := Option.bind_eq_some_iff.mp hpause
  have hid : other.id = event.id := by simpa using List.find?_some hother
  have hfree := hnone other (List.mem_of_find?_eq_some hother) (hid.trans heq)
  rw [hfree] at hcost
  cases hcost

/-- The limit has a cap that paces requests. -/
def QuotaLimit.isPaced (limit : QuotaLimit) : Bool :=
  limit.maxRps.isSome || limit.maxInputTokens.isSome || limit.maxOutputTokens.isSome || limit.maxTotalTokens.isSome

/-- Ids last, no reservation in the ledger outlasts the windows with its pause, where limits pace no reading lags by
more than the longest window, and an abort finds every other event of the ledger at the cost it was dispatched with. -/
structure Twin.Steady (inner : Inner) (twin : Twin) (turn : Turn) : Prop where
  ids : turn.work.queues = true → twin.ledger.state.nextId + 1 < 2 ^ 64
  served : Served inner twin.granted (twin.ledger.clock + turn.elapsed) twin.ledger.state
  prompt : ∀ limit ∈ inner.policy.limits, limit.isPaced = true →
    twin.ledger.clock + turn.elapsed ≤ turn.now + maxWindow inner.policy
  reserved : ∀ id, turn.work = .abort id → Unrewritten inner twin.granted id twin.ledger.state

private theorem isPaced_of_pause {event : UsageEvent} {key : PacingKey} {pause : Nat}
    (h : event.pause inner key = some pause) : ∃ limit ∈ inner.policy.limits, limit.isPaced = true := by
  obtain ⟨limit, hlimit, h⟩ := Option.bind_eq_some_iff.mp h
  refine ⟨limit, List.mem_of_getElem? hlimit, ?_⟩
  split at h
  · have htoken : ∀ cap tokens, limit.tokenPause inner cap tokens = some pause → cap.isSome = true := by
      intro cap tokens hpause
      obtain ⟨amount, rfl, -⟩ := Option.bind_eq_some_iff.mp hpause
      rfl
    unfold QuotaLimit.isPaced
    cases hmetric : key.metric <;> rw [hmetric] at h
    · obtain ⟨rps, hrps, -⟩ := Option.map_eq_some_iff.mp h
      simp [hrps]
    · simp [htoken _ _ h]
    · simp [htoken _ _ h]
    · simp [htoken _ _ h]
  · cases h

/-- A section that does nothing for `p` does the same on both sides before it looks at the queue. -/
private theorem Paired.own {work : Section} (h : Paired inner p granted clock s u) (hout : work.releases ≠ some p)
    (hreserved : ∀ id, work = .abort id → Unrewritten inner granted id s) :
    Paired inner p granted clock (applied inner s work.own) (applied inner u (others p work.own)) := by
  have hother : ∀ change : Change, change.permit ≠ some p → others p [change] = [change] :=
    fun change hne => List.filter_cons_of_pos (decide_eq_true hne)
  cases work with
  | enqueue | pass | expire | dropPending => exact h
  | complete permit inputTokens outputTokens cacheReadHit =>
    rw [Section.own]
    cases hid : permit.reservationId with
    | none => exact h
    | some id =>
      have hne : (Change.settle id inputTokens outputTokens).permit ≠ some p := fun heq => hout (hid.trans heq)
      rw [Option.toList_some, List.map_singleton, hother _ hne]
      exact ⟨h.tracks.settle _ _ _, h.without.settle _ _ _, h.coupled.settle h.tracks h.without _ _ _⟩
  | abort id =>
    rw [Section.own, hother (.revoke id) hout]
    have hleft := hreserved id rfl
    exact ⟨h.tracks.revoke hleft, h.without.revoke (hleft.sublist h.coupled.events),
      h.coupled.revoke h.tracks h.without hleft⟩
  | dropLease id =>
    rw [Section.own, hother (.release id) hout]
    exact ⟨h.tracks.release id, h.without.release id, h.coupled.release id⟩

private theorem others_opening (p now : Nat) (work : Section) :
    others p (work.opening now) = others p work.own ++ if work.prunes then [.prune now] else [] := by
  unfold Section.opening others
  rw [List.filter_append]
  split <;> rfl

private theorem Paired.opening {work : Section} (h : Paired inner p granted clock s u)
    (hserved : Served inner granted clock s) (hnow : now ≤ clock)
    (hout : work.releases ≠ some p) (hreserved : ∀ id, work = .abort id → Unrewritten inner granted id s) :
    Paired inner p granted clock (applied inner s (work.opening now)) (applied inner u (others p (work.opening now))) := by
  have hown := h.own hout hreserved
  rw [others_opening, Section.opening, applied_append, applied_append]
  split
  · have hserved' : Served inner granted clock (applied inner s work.own) := hserved.of_old fun event hevent =>
      Section.edit_events ((work.edit_alike inner now s).events ▸ hevent)
    have hwithout : Served inner granted clock (applied inner u (others p work.own)) :=
      hserved'.of_old fun event hevent => ⟨event, hown.coupled.events.subset hevent, rfl, rfl⟩
    exact ⟨hown.tracks.prune hserved' hnow, hown.without.prune hwithout hnow, hown.coupled.prune hown.without hnow⟩
  · exact hown

/-- What holds of the two sides while `p` is not taken back. -/
structure Twin.Sound (inner : Inner) (p : Nat) (twin : Twin) : Prop where
  issued : Issued twin.granted twin.ledger.state
  paired : Paired inner p twin.granted twin.ledger.clock twin.ledger.state twin.without

theorem Twin.Sound.next {twin : Twin} {turn : Turn} (hsound : twin.ledger.Sound inner)
    (h : twin.Sound inner p) (hready : twin.ledger.Ready inner turn) (hsteady : twin.Steady inner turn)
    (hout : turn.work.releases ≠ some p) : (twin.next inner p turn).Sound inner p := by
  have hissued := h.issued.next hsound hsteady.ids
  have hreserves := hsound.reserves h.issued turn
  have hopening := (h.paired.later (Nat.le_add_right _ turn.elapsed)).opening hsteady.served hready.1 hout
    hsteady.reserved
  have hopened := hopening.alike (turn.work.opened_alike inner turn.now twin.ledger.state)
  have hprompt : ∀ (event : UsageEvent) key pause, event.pause inner key = some pause →
      twin.ledger.clock + turn.elapsed ≤ turn.now + maxWindow inner.policy := by
    intro event key pause hpause
    obtain ⟨limit, hlimit, hpaced⟩ := isPaced_of_pause hpause
    exact hsteady.prompt limit hlimit hpaced
  have hpaired := (hopened.grants hready.1 hprompt hreserves.admitted hissued.distinct).alike hreserves.alike
  refine ⟨hissued, ?_⟩
  unfold Twin.next Section.changes
  dsimp only
  rw [others, List.filter_append, applied_append]
  exact hpaired

/-- The run up to the abort takes nothing of `p` back. -/
theorem Twin.sound {twin : Twin} (hrun : (twins inner p).Run
      (fun twin turn => twin.Steady inner turn ∧ turn.work.releases ≠ some p) twin) : twin.Sound inner p := by
  induction hrun with
  | initial => exact ⟨.initial, .initial, .initial, .initial⟩
  | step turn run enabled ok ih =>
    exact ih.next (Ledger.sound (twins_ledger run)) enabled ok.1 ok.2

/-- The abort itself. -/
theorem Twin.Sound.abort {twin : Twin} {turn : Turn} (hsound : twin.ledger.Sound inner)
    (h : twin.Sound inner p) (hgranted : p ∈ twin.granted.map UsageEvent.id)
    (hsteady : twin.Steady inner turn) (habort : turn.work = .abort p)
    (hnow : turn.now = twin.ledger.clock + turn.elapsed) :
    Agrees inner turn.now (twin.next inner p turn).ledger.state (twin.next inner p turn).without := by
  have hreserves := hsound.reserves h.issued turn
  have hopened := (h.issued.opened inner turn.now turn.work).fresh
  have halike := turn.work.opened_alike inner turn.now twin.ledger.state
  have hrevoked := (h.paired.later (Nat.le_add_right _ turn.elapsed)).revoke hsteady.served
    (hsteady.reserved p habort)
  rw [← hnow] at hrevoked
  have hothers : ∀ event ∈ twin.ledger.grants inner turn, event.id ≠ p := by
    intro event hevent heq
    have hqueued := ((turn.work.opened_pending inner turn.now twin.ledger.state).map Sigma.fst).subset
      (hreserves.queued event hevent)
    exact (h.issued.queued event.id hqueued).2 (heq ▸ hgranted)
  have hopening : Agrees inner turn.now (applied inner twin.ledger.state (turn.work.opening turn.now))
      (applied inner twin.without (others p (turn.work.opening turn.now))) := by
    have hown : others p (Section.abort p).own = [] := List.filter_cons_of_neg (by simp [Change.permit])
    rw [others_opening, Section.opening, habort, hown]
    exact hrevoked.prune (Nat.le_refl _)
  have hdone := ((hopening.alike halike).grants hreserves.admitted hothers).alike hreserves.alike
  unfold Twin.next Section.changes
  dsimp only
  rw [others, List.filter_append, applied_append]
  exact hdone

/-- Aborts are inert in steady runs. When `p` was dispatched, nothing gave it back before and it is aborted,
everyone is as ready from then on as in the run without `p`, whether that is this run without the changes made
for `p` or any run of the scheduler that makes the other changes alone. What the pacing table shows of the
keys at which `p` cost no pause stays as it is. -/
theorem abort_is_inert {twin : Twin} (hrun : (twins inner p).Run
      (fun twin turn => twin.Steady inner turn ∧ turn.work.releases ≠ some p) twin)
    (hgranted : p ∈ twin.granted.map UsageEvent.id) {turn : Turn} (hsteady : twin.Steady inner turn)
    (habort : turn.work = .abort p) (hnow : turn.now = twin.ledger.clock + turn.elapsed) :
    (∀ request inputTokens outputTokens time, turn.now ≤ time →
      readiness inner.policy (twin.next inner p turn).ledger.state request inputTokens outputTokens time =
        readiness inner.policy (twin.next inner p turn).without request inputTokens outputTokens time) ∧
    (∀ other, Beside inner p (twin.next inner p turn) other →
      ∀ request inputTokens outputTokens time, turn.now ≤ time →
        readiness inner.policy (twin.next inner p turn).ledger.state request inputTokens outputTokens time =
          readiness inner.policy other.state request inputTokens outputTokens time) ∧
    ∀ key, (∀ event ∈ twin.granted, event.id = p → event.pause inner key = none) →
      max (((twin.ledger.state.revoke inner p).pacing key).getD 0) turn.now =
        max ((twin.ledger.state.pacing key).getD 0) turn.now := by
  have hledger := Ledger.sound (twins_ledger hrun)
  have hsound := Twin.sound hrun
  have hreserved := hsteady.reserved p habort
  have hagrees := hsound.abort hledger hgranted hsteady habort hnow
  refine ⟨fun request inputTokens outputTokens time hle => hagrees.readiness hle, fun other hother => ?_,
    fun key hnone => ?_⟩
  · intro request inputTokens outputTokens time hle
    have hsame := hother.alike
    have hsame' : Agrees inner turn.now (twin.next inner p turn).ledger.state other.state :=
      ⟨hsame.events ▸ hagrees.events, hagrees.active.trans hsame.active.symm, hsame.pacing ▸ hagrees.pacing⟩
    exact hsame'.readiness hle
  · have htracks := hsound.paired.tracks.later (Nat.le_add_right _ turn.elapsed)
    rw [hnow]
    exact htracks.revoke_pacing_of_none hreserved hnone

/-- The events of the ledger are those that were dispatched. -/
private theorem unrewritten_of_found {id : Nat} (h : ∀ event ∈ s.events, event.id ≠ id →
    granted.find? (fun other => other.id = event.id) = some event) : Unrewritten inner granted id s := by
  intro event hevent hne key
  unfold reservedPause
  rw [h event hevent hne]
  rfl

/-- Nothing has left the longest window yet. -/
private theorem served_of_young (h : clock < maxWindow inner.policy) : Served inner granted clock s :=
  fun event _ _ _ _ hgone => absurd hgone (by omega)

/-- What an early turn without an abort has to meet. -/
private theorem steady_of_quiet {twin : Twin} {turn : Turn}
    (hids : turn.work.queues = true → twin.ledger.state.nextId + 1 < 2 ^ 64)
    (hyoung : twin.ledger.clock + turn.elapsed < maxWindow inner.policy) (hnone : turn.work.aborts = []) :
    twin.Steady inner turn := by
  refine ⟨hids, served_of_young hyoung, fun _ _ _ => by omega, fun id heq => ?_⟩
  rw [heq] at hnone
  cases hnone

section Examples

/-- Ten output tokens of this model a second. -/
private def meter : Inner := .plain
  { enabled := true, queueCoalesceMs := 0
    limits := [{ model := some "gpt", windowSeconds := 60, maxOutputTokens := some 600 }] }

private def metered : ScheduleRequest := { ScheduleRequest.plain "openai" "key" "gpt" with outputTokens := 100 }

private def unmetered : ScheduleRequest := .plain "openai" "key" "mini"

private def meteredPermit : SchedulePermit :=
  { reservationId := some 0, provider := "openai", authScope := "key", model := "gpt", sessionId := none
    interaction := .unknown, inputTokens := 0, outputTokens := 100, waited := 0 }

private def bothQueued : List Turn :=
  [⟨0, 0, undisturbed, .enqueue 0 metered⟩, ⟨0, 0, undisturbed, .enqueue 1 unmetered⟩,
    ⟨0, 0, undisturbed, .pass 0 metered⟩]

/-- The metered request reports these tokens after a second. -/
private def report (outputTokens : Option Nat) : Turn :=
  ⟨1000000000, 1000000000, undisturbed, .complete meteredPermit none outputTokens none⟩

/-- Both are dispatched, the metered one is completed. -/
private def dispatchedBoth (outputTokens : Option Nat) : Twin := (twins meter 1).replay (twins meter 1).initial
  (bothQueued ++ [⟨0, 0, undisturbed, .pass 1 unmetered⟩, report outputTokens])

private def abortOther : Turn := ⟨1000000000, 2000000000, undisturbed, .abort 1⟩

/-- The metered request completes without a report, so that its event is replayed as it was dispatched. -/
theorem abort_is_inert_metered :
    let after := (dispatchedBoth none).next meter 1 abortOther
    readiness meter.policy after.ledger.state metered 0 100 2000000000 =
        readiness meter.policy after.without metered 0 100 2000000000 ∧
      readiness meter.policy after.without metered 0 100 2000000000 =
        { atTime := some 10000000000, impossible := false } := by
  have hrun : (twins meter 1).Run (fun twin turn => twin.Steady meter turn ∧ turn.work.releases ≠ some 1)
      (dispatchedBoth none) := .replay .initial
    ⟨⟨by decide, rfl⟩, ⟨steady_of_quiet (by decide) (by decide) (by decide), by decide⟩,
      ⟨by decide, rfl⟩, ⟨steady_of_quiet (by decide) (by decide) (by decide), by decide⟩,
      ⟨by decide, trivial⟩, ⟨steady_of_quiet (by decide) (by decide) (by decide), by decide⟩,
      ⟨by decide, trivial⟩, ⟨steady_of_quiet (by decide) (by decide) (by decide), by decide⟩,
      ⟨by decide, trivial⟩, ⟨steady_of_quiet (by decide) (by decide) (by decide), by decide⟩, trivial⟩
  have hsteady : (dispatchedBoth none).Steady meter abortOther := by
    refine ⟨by decide, served_of_young (by decide), by decide, fun id heq => ?_⟩
    cases heq
    exact unrewritten_of_found (by decide)
  have hinert := abort_is_inert hrun (by decide) hsteady rfl (by decide)
  exact ⟨hinert.1 metered 0 100 2000000000 (Nat.le_refl _), by decide⟩

/-- The turns of the run in which the other request left the queue instead. -/
private def withdrawnOther : Ledger := (ledgers meter).replay (ledgers meter).initial
  (bothQueued ++ [⟨0, 0, undisturbed, .dropPending 1⟩, report (some 10),
    ⟨1000000000, 2000000000, undisturbed, .dropPending 1⟩])

/-- The metered request has reported ten of its hundred tokens. The abort of a permit that its limit does
not select then forgets nine seconds of its pause, and the next metered request is ready at once. -/
theorem abort_hastens_others :
    let before := dispatchedBoth (some 10)
    let after := before.next meter 1 abortOther
    let key := { ruleIndex := 0, provider := "openai", authScope := "", model := "gpt", metric := .outputTokens }
    (twins meter 1).Run (fun _ turn => turn.work.releases ≠ some 1) before ∧
      before.ledger.Ready meter abortOther ∧ before.granted.map UsageEvent.id = [0, 1] ∧
      Beside meter 1 after withdrawnOther ∧
      readiness meter.policy after.ledger.state metered 0 100 2000000000 =
        { atTime := some 2000000000, impossible := false } ∧
      readiness meter.policy withdrawnOther.state metered 0 100 2000000000 =
        { atTime := some 10000000000, impossible := false } ∧
      before.ledger.state.pacing key = some 10000000000 ∧
      (before.ledger.state.revoke meter 1).pacing key = some 1000000000 := by
  have hbeside : (besides meter 1).Run (fun _ _ => True) ((besides meter 1).replay (besides meter 1).initial
      (bothQueued.map (fun turn => (turn, turn)) ++
        [(⟨0, 0, undisturbed, .pass 1 unmetered⟩, ⟨0, 0, undisturbed, .dropPending 1⟩),
          (report (some 10), report (some 10)),
          (abortOther, ⟨1000000000, 2000000000, undisturbed, .dropPending 1⟩)])) :=
    .replay .initial (by decide)
  exact ⟨.replay .initial (by decide), by decide, by decide, hbeside, by decide, by decide, by decide, by decide⟩

end Examples

end Kaiion.Scheduling
