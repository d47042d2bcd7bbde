import Kaiion.Scheduling.Critical
import Kaiion.Scheduling.Pacing
import Kaiion.Scheduling.Readiness
import Mathlib.Data.List.TakeWhile

/-! What never makes a request ready sooner: more reservations, more active requests, later pacing,
and pruning what is out of every window. -/
namespace Kaiion.Scheduling
open Foundation

variable {inner : Inner} {mayOpen : Nat → Prop} {pending : Pending} {now time : Nat} {s t : State}

/-- The tokens that are recorded or queued add up without wrapping. -/
structure State.Bounded (s : State) : Prop where
  input : (s.events.map UsageEvent.inputTokens).sum +
    (s.pending.entries.map (fun entry => entry.2.inputTokens)).sum < 2 ^ 64
  output : (s.events.map UsageEvent.outputTokens).sum +
    (s.pending.entries.map (fun entry => entry.2.outputTokens)).sum < 2 ^ 64

theorem State.Bounded.sublist (h : s.Bounded) (hevents : t.events.Sublist s.events)
    (hpending : t.pending.entries.Sublist s.pending.entries) : t.Bounded where
  input := Nat.lt_of_le_of_lt (Nat.add_le_add (sum_le_of_sublist (hevents.map _))
    (sum_le_of_sublist (hpending.map _))) h.input
  output := Nat.lt_of_le_of_lt (Nat.add_le_add (sum_le_of_sublist (hevents.map _))
    (sum_le_of_sublist (hpending.map _))) h.output

/-- `t` asks at least as much as `s` of a request at `time`. -/
structure Tightens (policy : SchedulingPolicy) (time : Nat) (s t : State) : Prop where
  events : (s.events.filter (fun event => time - event.atTime < maxWindow policy)).Sublist t.events
  active : ∀ p, s.active.entries.countP p ≤ t.active.entries.countP p
  pacing : ∀ key instant, s.pacing key = some instant → instant ≤ time ∨
    ∃ later, t.pacing key = some later ∧ instant ≤ later

private theorem sumU64_le {items others all : List Nat} (hsub : items.Sublist others)
    (hall : others.Sublist all) (hlt : all.sum < 2 ^ 64) : sumU64 items ≤ sumU64 others := by
  have hle := sum_le_of_sublist hsub
  have hle' := sum_le_of_sublist hall
  rw [sumU64, sumU64, Nat.mod_eq_of_lt (by omega), Nat.mod_eq_of_lt (by omega)]
  exact hle

/-- What counts against a request is not out of every window. -/
private theorem counted_of_recent {policy : SchedulingPolicy} {limit : QuotaLimit}
    (hlimit : limit ∈ policy.limits) (request : ScheduleRequest) (time : Nat) (events : List UsageEvent) :
    counted limit request time events = counted limit request time
      (events.filter (fun event => time - event.atTime < maxWindow policy)) := by
  unfold counted
  rw [List.filter_filter]
  refine List.filter_congr fun event _ => ?_
  have hwindow := window_le_maxWindow hlimit
  rw [Bool.eq_iff_iff, Bool.and_eq_true, decide_eq_true_eq]
  refine ⟨fun h => ⟨h, ?_⟩, And.left⟩
  simp only [eventMatches, Bool.and_eq_true, decide_eq_true_eq] at h
  omega

theorem Tightens.clear (h : Tightens inner.policy time s t) (hbounded : t.Bounded)
    (hclear : pending.Clear inner t time) : pending.Clear inner s time := by
  refine ⟨fun entry hentry hmatches => ?_, ?_⟩
  · obtain ⟨hsize, hrolling, hpaced⟩ := hclear.room entry hentry hmatches
    have hlimit : entry.1 ∈ inner.policy.limits :=
      List.mem_of_getElem? (List.mk_mem_zipIdx_iff_getElem?.mp hentry)
    have hsub : (counted entry.1 pending.request time s.events).Sublist
        (counted entry.1 pending.request time t.events) := by
      rw [counted_of_recent hlimit]
      exact h.events.filter _
    refine ⟨hsize, capFit_mono hsub.length_le
      (sumU64_le (hsub.map _) (List.filter_sublist.map _) (Nat.lt_of_le_of_lt (Nat.le_add_right _ _) hbounded.input))
      (sumU64_le (hsub.map _) (List.filter_sublist.map _) (Nat.lt_of_le_of_lt (Nat.le_add_right _ _) hbounded.output))
      hrolling, fun instant hinstant => ?_⟩
    obtain ⟨metric, hmetric, hfound⟩ := List.mem_filterMap.mp hinstant
    rcases h.pacing _ _ hfound with hle | ⟨later, hlater, hle⟩
    · exact hle
    · exact Nat.le_trans hle (hpaced later (List.mem_filterMap.mpr ⟨metric, hmetric, hlater⟩))
  · have hfree := hclear.free
    unfold concurrencyBlocked at hfree ⊢
    simp only [List.any_eq_false, Option.any_eq_true, Bool.and_eq_true, decide_eq_true_eq] at hfree ⊢
    rintro limit hlimit ⟨cap, hcap, hmatches, hle⟩
    exact hfree limit hlimit ⟨cap, hcap, hmatches, Nat.le_trans hle (h.active _)⟩

/-- A request that is ready in the tighter state is ready in the other. -/
theorem Tightens.ready (h : Tightens inner.policy time s t) (hbounded : t.Bounded)
    (hready : pending.readyAt inner t time = true) : pending.readyAt inner s time = true := by
  cases henabled : inner.policy.enabled with
  | true => exact readyAt_of_clear (h.clear hbounded (clear_of_readyAt henabled hready))
  | false => simp [Pending.readyAt, Pending.fit, readiness, henabled, Fit.readyBy]

theorem Tightens.refl (policy : SchedulingPolicy) (time : Nat) (s : State) : Tightens policy time s s :=
  ⟨List.filter_sublist, fun _ => Nat.le_refl _, fun _ instant h => .inr ⟨instant, h, Nat.le_refl _⟩⟩

/-- Pruning drops only what no longer counts. -/
theorem pruneEvents_tightens (policy : SchedulingPolicy) (hnow : now ≤ time) (s : State) :
    Tightens policy time s (pruneEvents policy now s) where
  events := by
    rw [← pruneEvents_recent hnow s]
    exact List.filter_sublist
  active _ := Nat.le_refl _
  pacing key instant h := by
    by_cases hle : instant ≤ time
    · exact .inl hle
    · refine .inr ⟨instant, ?_, Nat.le_refl _⟩
      have hahead : now < instant := by omega
      simp [pruneEvents, h, hahead]

theorem Tightens.trans {policy : SchedulingPolicy} {u : State} (h : Tightens policy time s t)
    (h' : Tightens policy time t u) : Tightens policy time s u where
  events := by
    have hsub := h.events.filter (fun event => time - event.atTime < maxWindow policy)
    rw [List.filter_filter, List.filter_congr (fun _ _ => Bool.and_self _)] at hsub
    exact hsub.trans h'.events
  active p := Nat.le_trans (h.active p) (h'.active p)
  pacing key instant hinstant := by
    rcases h.pacing key instant hinstant with hle | ⟨later, hlater, hle⟩
    · exact .inl hle
    · rcases h'.pacing key later hlater with hle' | ⟨last, hlast, hle'⟩
      · exact .inl (Nat.le_trans hle hle')
      · exact .inr ⟨last, hlast, Nat.le_trans hle hle'⟩

/-- No queued id is in use. -/
def State.Fresh (s : State) : Prop :=
  ∀ id ∈ s.pending, id ∉ s.active ∧ ∀ event ∈ s.events, event.id ≠ id

theorem State.Fresh.sublist (h : s.Fresh) (hpending : t.pending.entries.Sublist s.pending.entries)
    (hactive : ∀ id ∈ t.active, id ∈ s.active)
    (hevents : ∀ event ∈ t.events, ∃ old ∈ s.events, old.id = event.id) : t.Fresh := by
  intro id hid
  obtain ⟨hidle, hunused⟩ := h id ((hpending.map Sigma.fst).subset hid)
  refine ⟨fun hmem => hidle (hactive id hmem), fun event hevent heq => ?_⟩
  obtain ⟨old, hold, hsame⟩ := hevents event hevent
  exact hunused old hold (hsame.trans heq)

/-- A request that leaves the queue makes none of the others ready. -/
private theorem tightens_of_same {policy : SchedulingPolicy} (hevents : t.events = s.events)
    (hactive : t.active = s.active) (hpacing : t.pacing = s.pacing) : Tightens policy time s t where
  events := hevents ▸ List.filter_sublist
  active p := by rw [hactive]
  pacing key instant h := .inr ⟨instant, by rw [hpacing, h], Nat.le_refl _⟩

theorem fresh_of_grant {id : Nat} (h : s.Fresh) : (s.grant inner id now pending).Fresh := by
  intro other hother
  rw [grant_pending, AList.mem_erase] at hother
  obtain ⟨hne, hmem⟩ := hother
  obtain ⟨hidle, hunused⟩ := h other hmem
  rw [grant_active, grant_events]
  refine ⟨by simp [hne, hidle], fun event hevent => ?_⟩
  rcases List.mem_append.mp hevent with hevent | hevent
  · exact hunused event hevent
  · cases List.mem_singleton.mp hevent
    exact fun heq => hne heq.symm

private theorem tightens_of_grant {id : Nat} (hidle : id ∉ s.active) :
    Tightens inner.policy time s (s.grant inner id now pending) where
  events := by
    rw [grant_events]
    exact List.filter_sublist.trans (List.sublist_append_left _ _)
  active p := by
    have hsame : s.active.erase id = s.active := AList.ext (List.kerase_of_notMem_keys hidle)
    rw [grant_active, AList.entries_insert]
    have herase : s.active.entries.kerase id = s.active.entries := congrArg AList.entries hsame
    rw [herase, List.countP_cons]
    exact Nat.le_add_right _ _
  pacing key instant h := by
    obtain ⟨later, hlater, hle⟩ := @updatePacing_keeps inner key instant now pending.request
      pending.inputTokens pending.outputTokens ((s.removePending id).reserve id now pending)
      ⟨instant, by simpa [State.reserve] using h, Nat.le_refl _⟩
    exact .inr ⟨later, hlater, hle⟩

/-- A reservation that is made and taken back leaves no trace. -/
theorem undo_trace {id : Nat} (h : s.Fresh) (hid : id ∈ s.pending) :
    (((s.removePending id).reserve id now pending).retract id).events = s.events ∧
      (((s.removePending id).reserve id now pending).retract id).active = s.active ∧
      (((s.removePending id).reserve id now pending).retract id).pacing = s.pacing := by
  obtain ⟨hidle, hunused⟩ := h id hid
  refine ⟨?_, ?_, by simp [State.reserve, State.retract]⟩
  · have hkept : s.events.filter (fun event => event.id ≠ id) = s.events :=
      List.filter_eq_self.mpr fun event hevent => by simpa using hunused event hevent
    simp only [State.retract, State.reserve, removePending_events, List.filter_append, hkept]
    simp [Pending.event]
  · simp only [State.retract, State.reserve, removePending_active, erase_insert]
    exact AList.ext (List.kerase_of_notMem_keys hidle)

theorem fresh_of_removed (h : s.Fresh) (id : Nat) : (s.removePending id).Fresh := by
  refine h.sublist ?_ (by simp) (fun event hevent => ⟨event, by simpa using hevent, rfl⟩)
  rw [removePending_pending]
  exact erase_entries_sublist id _

theorem fresh_of_undo {id : Nat} (h : s.Fresh) (hid : id ∈ s.pending) :
    (((s.removePending id).reserve id now pending).retract id).Fresh := by
  obtain ⟨hevents, hactive, -⟩ := @undo_trace pending now _ id h hid
  refine h.sublist ?_ (fun other hother => hactive ▸ hother) (fun event hevent => ⟨event, hevents ▸ hevent, rfl⟩)
  rw [undo_pending]
  exact erase_entries_sublist id _

/-- The moves of a pass let no request they leave in the queue through sooner. -/
theorem Moves.tightens {sent : List (Nat × ScheduleOutcome)} {returned : List Nat}
    (h : Moves inner mayOpen now s sent returned t) (hfresh : s.Fresh) :
    Tightens inner.policy time s t := by
  induction h with
  | stop => exact .refl _ _ _
  | calm _ _ ih =>
    refine Tightens.trans ?_ (ih hfresh)
    exact tightens_of_same rfl rfl rfl
  | discard id pending found _ ih | refuse id pending found _ _ _ ih =>
    exact (tightens_of_same (by simp) (by simp) (by simp)).trans (ih (fresh_of_removed hfresh id))
  | grant id pending found _ _ _ ih =>
    exact (tightens_of_grant (hfresh id (mem_of_lookup found)).1).trans (ih (fresh_of_grant hfresh))
  | undo id pending found _ ih =>
    obtain ⟨hevents, hactive, hpacing⟩ := @undo_trace pending now _ id hfresh (mem_of_lookup found)
    exact (tightens_of_same hevents hactive hpacing).trans (ih (fresh_of_undo hfresh (mem_of_lookup found)))

/-- A queue that is ready after the moves of a pass would have been ready without them. -/
theorem Moves.queueReady {sent : List (Nat × ScheduleOutcome)} {returned : List Nat}
    (h : Moves inner mayOpen now s sent returned t) (hnow : now ≤ time) (hne : t.pending.entries ≠ [])
    (hready : Scheduling.queueReady t time = true) : Scheduling.queueReady s time = true := by
  induction h with
  | stop => exact hready
  | calm settled rest ih =>
    rcases settled with hnil | hready'
    · exact absurd (List.sublist_nil.mp (hnil ▸ rest.sublist)) hne
    · unfold Scheduling.queueReady at hready' ⊢
      rw [Option.all_eq_true] at hready' ⊢
      intro instant hinstant
      have hle := hready' instant hinstant
      rw [decide_eq_true_eq] at hle ⊢
      exact Nat.le_trans hle hnow
  | discard id pending found _ ih | refuse id pending found _ _ _ ih =>
    simpa [Scheduling.queueReady] using ih hne hready
  | grant id pending found _ _ _ ih =>
    simpa [Scheduling.queueReady, State.grant, updatePacing, State.reserve] using ih hne hready
  | undo id pending found _ ih =>
    simpa [Scheduling.queueReady, State.retract, State.reserve] using ih hne hready

private theorem bounded_of_sums {s t : State}
    (input : (t.events.map UsageEvent.inputTokens).sum +
      (t.pending.entries.map (fun entry => entry.2.inputTokens)).sum ≤
        (s.events.map UsageEvent.inputTokens).sum +
          (s.pending.entries.map (fun entry => entry.2.inputTokens)).sum)
    (output : (t.events.map UsageEvent.outputTokens).sum +
      (t.pending.entries.map (fun entry => entry.2.outputTokens)).sum ≤
        (s.events.map UsageEvent.outputTokens).sum +
          (s.pending.entries.map (fun entry => entry.2.outputTokens)).sum)
    (h : s.Bounded) : t.Bounded :=
  ⟨Nat.lt_of_le_of_lt input h.input, Nat.lt_of_le_of_lt output h.output⟩

/-- A reservation is for the tokens its request was queued with. -/
private theorem bounded_of_grant {id : Nat} (found : s.pending.lookup id = some pending) (h : s.Bounded) :
    (s.grant inner id now pending).Bounded := by
  have hperm := entries_perm_of_lookup found
  have hinput := (hperm.map (fun entry => entry.2.inputTokens)).sum_nat
  have houtput := (hperm.map (fun entry => entry.2.outputTokens)).sum_nat
  rw [List.map_cons, List.sum_cons] at hinput houtput
  refine bounded_of_sums ?_ ?_ h
  · rw [grant_events, grant_pending, List.map_append, List.sum_append, hinput]
    simp [Pending.event]
    omega
  · rw [grant_events, grant_pending, List.map_append, List.sum_append, houtput]
    simp [Pending.event]
    omega

theorem Moves.bounded {sent : List (Nat × ScheduleOutcome)} {returned : List Nat}
    (h : Moves inner mayOpen now s sent returned t) (hfresh : s.Fresh) (hbounded : s.Bounded) :
    t.Bounded := by
  have removed : ∀ {s : State} (id : Nat), s.Bounded → (s.removePending id).Bounded := by
    intro s id hs
    refine hs.sublist (by rw [removePending_events]) ?_
    rw [removePending_pending]
    exact erase_entries_sublist id _
  induction h with
  | stop => exact hbounded
  | calm _ _ ih => exact ih hfresh ⟨hbounded.input, hbounded.output⟩
  | discard id pending found _ ih | refuse id pending found _ _ _ ih =>
    exact ih (fresh_of_removed hfresh id) (removed id hbounded)
  | grant id pending found _ _ _ ih => exact ih (fresh_of_grant hfresh) (bounded_of_grant found hbounded)
  | undo id pending found _ ih =>
    obtain ⟨hevents, hactive, -⟩ := @undo_trace pending now _ id hfresh (mem_of_lookup found)
    refine ih (fresh_of_undo hfresh (mem_of_lookup found)) (hbounded.sublist (by rw [hevents]) ?_)
    rw [undo_pending]
    exact erase_entries_sublist id _

theorem Section.opened_tightens {work : Section} (hreleases : work.releases = none) (hnow : now ≤ time)
    (s : State) : Tightens inner.policy time s (work.opened inner now s) ∧
      (work.opened inner now s).events.Sublist s.events := by
  have hedit : (work.edit inner now s).events = s.events ∧ (work.edit inner now s).active = s.active ∧
      (work.edit inner now s).pacing = s.pacing := by
    cases work with
    | enqueue | pass => exact ⟨rfl, rfl, rfl⟩
    | expire id | dropPending id => simp [Section.edit, State.withdraw]
    | complete permit inputTokens outputTokens cacheReadHit =>
      obtain ⟨sessions, heq⟩ := settle_eq now permit inputTokens outputTokens cacheReadHit s
      have hnone : permit.reservationId = none := hreleases
      rw [Section.edit, heq, hnone]
      exact ⟨rfl, rfl, rfl⟩
    | abort id | dropLease id => cases hreleases
  obtain ⟨hevents, hactive, hpacing⟩ := hedit
  have hsame := @tightens_of_same time s _ inner.policy hevents hactive hpacing
  unfold Section.opened
  split
  · exact ⟨hsame.trans (pruneEvents_tightens _ hnow _), hevents ▸ List.dropWhile_sublist _⟩
  · exact ⟨hsame, hevents ▸ .refl _⟩

theorem Section.opened_queueReady {work : Section} (hne : (work.opened inner now s).pending.entries ≠ []) :
    Scheduling.queueReady (work.opened inner now s) time = Scheduling.queueReady s time := by
  have withdrawn : ∀ id, (s.withdraw id).pending.entries ≠ [] →
      (s.withdraw id).coalesceUntil = s.coalesceUntil := by
    intro id hne
    rw [State.withdraw, clearCoalesce_pending] at hne
    rw [State.withdraw, State.clearCoalesce, if_neg hne, removePending_coalesceUntil]
  have hedit : (work.edit inner now s).pending.entries ≠ [] →
      (work.edit inner now s).coalesceUntil = s.coalesceUntil := by
    intro hne
    cases work with
    | enqueue | pass | dropLease => rfl
    | expire id | dropPending id => exact withdrawn id hne
    | complete permit inputTokens outputTokens cacheReadHit =>
      obtain ⟨sessions, heq⟩ := settle_eq now permit inputTokens outputTokens cacheReadHit s
      rw [Section.edit, heq]
    | abort id =>
      obtain ⟨pacing, heq⟩ := revoke_eq inner id s
      rw [Section.edit, heq]
  unfold Section.opened at hne ⊢
  unfold Scheduling.queueReady
  split
  next hprunes =>
    rw [if_pos hprunes] at hne
    exact congrArg _ (hedit hne)
  next hprunes =>
    rw [if_neg hprunes] at hne
    exact congrArg _ (hedit hne)

/-- A section that gives no reservation back lets no request it leaves in the queue through sooner. -/
theorem Section.run_delays {work : Section} (hwork : work.queues = false) (hreleases : work.releases = none)
    (closed : Nat → Closings) (hfresh : s.Fresh) (hbounded : s.Bounded) (hnow : now ≤ time) {id : Nat}
    (found : (work.run inner closed now s).state.pending.lookup id = some pending)
    (hready : pending.readyAt inner (work.run inner closed now s).state time = true) :
    s.pending.lookup id = some pending ∧ pending.readyAt inner (work.opened inner now s) time = true ∧
      pending.readyAt inner s time = true ∧
      (queueReady (work.run inner closed now s).state time = true → queueReady s time = true) := by
  have hmoves := @Section.run_moves inner closed (fun _ => True) (fun _ _ _ => trivial) now s work hwork
  obtain ⟨htighter, hevents⟩ := @Section.opened_tightens inner now time work hreleases hnow s
  have hpending := work.opened_pending inner now s
  have hopened : (work.opened inner now s).Fresh := by
    refine hfresh.sublist hpending (fun other hother => ?_) (fun event hevent => ⟨event, hevents.subset hevent, rfl⟩)
    rwa [Section.opened_active, hreleases] at hother
  have hopenedBounded := hbounded.sublist hevents hpending
  have hbefore := (hmoves.tightens hopened).ready (hmoves.bounded hopened hopenedBounded) hready
  have hfound := hmoves.pending found
  refine ⟨lookup_of_sublist hpending hfound, hbefore, htighter.ready hopenedBounded hbefore, fun hqueue => ?_⟩
  rw [← @Section.opened_queueReady inner now time s work (List.ne_nil_of_mem (AList.mem_lookup_iff.mp hfound))]
  exact hmoves.queueReady hnow (List.ne_nil_of_mem (AList.mem_lookup_iff.mp found)) hqueue

end Kaiion.Scheduling
