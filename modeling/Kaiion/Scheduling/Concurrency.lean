import Kaiion.Scheduling.Ownership
import Kaiion.Scheduling.Readiness

/-! Concurrency caps. A dispatch only checks the limits that select its own request, and those are
all it can bring closer to their caps. -/
namespace Kaiion.Scheduling
open Foundation

variable {inner : Inner}

/-- The active requests a limit counts together for one provider and credential. -/
def QuotaLimit.covers (limit : QuotaLimit) (provider authScope : String) (active : ActiveRequest) : Bool :=
  active.provider = provider && (!limit.authScoped || active.authScope = authScope) &&
    limit.model.all (fun model => model = active.model)

def State.activeIn (s : State) (limit : QuotaLimit) (provider authScope : String) : Nat :=
  s.active.entries.countP (fun entry => limit.covers provider authScope entry.2)

/-- No group of any limit has more active requests than its cap. -/
def Capped (policy : SchedulingPolicy) (s : State) : Prop :=
  ∀ limit ∈ policy.limits, ∀ cap, limit.maxConcurrency = some cap → ∀ provider authScope,
    limit.provider.all (fun name => name = provider) = true → s.activeIn limit provider authScope ≤ cap

variable {mayOpen : Nat → Prop} {now : Nat} {s t : State} {sent : List (Nat × ScheduleOutcome)}
variable {returned : List Nat}

theorem Capped.of_sublist (h : Capped inner.policy s) (hsub : t.active.entries.Sublist s.active.entries) :
    Capped inner.policy t := fun limit hlimit cap hcap provider authScope hselects =>
  Nat.le_trans (hsub.countP_le) (h limit hlimit cap hcap provider authScope hselects)

/-- A request that is not blocked leaves a slot in every group it belongs to. -/
private theorem slot_of_free {pending : Pending}
    (hfree : concurrencyBlocked inner.policy s pending.request = false) {limit : QuotaLimit}
    (hlimit : limit ∈ inner.policy.limits) {cap : Nat} (hcap : limit.maxConcurrency = some cap)
    {provider authScope : String} (hselects : limit.provider.all (fun name => name = provider) = true)
    (hcovers : limit.covers provider authScope pending.activeRequest = true) :
    s.activeIn limit provider authScope < cap := by
  simp only [QuotaLimit.covers, Pending.activeRequest, Bool.and_eq_true, Bool.or_eq_true,
    Bool.not_eq_true'] at hcovers
  obtain ⟨⟨hprovider, hscope⟩, hmodel⟩ := hcovers
  have hprovider := of_decide_eq_true hprovider
  -- The group is the one the check counts for this very request.
  have hsame : ∀ active, limit.covers provider authScope active = activeMatches limit pending.request active := by
    intro active
    unfold QuotaLimit.covers activeMatches
    rw [hprovider]
    cases hscoped : limit.authScoped with
    | false => rfl
    | true => rw [of_decide_eq_true (hscope.resolve_left (by simp [hscoped]))]
  have hmatches : ruleMatches limit pending.request = true := by
    unfold ruleMatches
    rw [hprovider, hselects, Bool.true_and]
    exact hmodel
  unfold concurrencyBlocked at hfree
  have hlimitFree := List.any_eq_false.mp hfree limit hlimit
  rw [hcap, Option.any_some, hmatches, Bool.true_and, decide_eq_true_eq, Nat.not_le] at hlimitFree
  unfold State.activeIn
  simpa only [hsame] using hlimitFree

/-- A dispatch takes a slot that was free in every group. -/
private theorem Capped.grant (h : Capped inner.policy s) (id : Nat) {pending : Pending}
    (hfree : concurrencyBlocked inner.policy s pending.request = false) :
    Capped inner.policy (s.grant inner id now pending) := by
  intro limit hlimit cap hcap provider authScope hselects
  have hle := countP_insert_le (fun entry => limit.covers provider authScope entry.2) id
    pending.activeRequest s.active
  have hold := h limit hlimit cap hcap provider authScope hselects
  unfold State.activeIn at hold ⊢
  rw [grant_active]
  refine Nat.le_trans hle ?_
  split
  next hcovers => exact slot_of_free hfree hlimit hcap hselects hcovers
  · exact hold

/-- Moves keep the caps. -/
theorem Moves.capped (h : Moves inner mayOpen now s sent returned t)
    (henabled : s.pending.entries ≠ [] → inner.policy.enabled = true) (hs : Capped inner.policy s) :
    Capped inner.policy t := by
  induction h with
  | stop => exact hs
  | calm _ _ ih => exact ih henabled hs
  | discard id pending found _ ih | refuse id pending found _ _ _ ih =>
    refine ih (fun _ => henabled (List.ne_nil_of_mem (AList.mem_lookup_iff.mp found))) ?_
    exact hs.of_sublist (by rw [removePending_active])
  | grant id pending found ready _ _ ih =>
    have hen := henabled (List.ne_nil_of_mem (AList.mem_lookup_iff.mp found))
    exact ih (fun _ => hen) (hs.grant id (clear_of_readyAt hen ready).free)
  | undo id pending found _ ih =>
    refine ih (fun _ => henabled (List.ne_nil_of_mem (AList.mem_lookup_iff.mp found))) ?_
    refine hs.of_sublist ?_
    rw [undo_active, erase_insert]
    exact erase_entries_sublist id _

/-- The caps hold, and only an enabled scheduler has a queue. -/
structure Sys.Capped (inner : Inner) (sys : Sys) : Prop where
  queued : sys.state.pending.entries ≠ [] → inner.policy.enabled = true
  caps : Scheduling.Capped inner.policy sys.state

theorem Sys.Capped.next {sys : Sys} (h : sys.Capped inner) {action : Action}
    (henabled : sys.Enabled inner action) : (sys.next inner action).Capped inner := by
  rcases sys.next_state inner action with hsame | ⟨closed, now, work, hwork, hstate⟩ | ⟨request, started, rfl⟩
  · exact ⟨hsame ▸ h.queued, hsame ▸ h.caps⟩
  · have hmoves := @Section.run_moves inner (sys.closings closed) (fun _ => True) (fun _ _ _ => trivial)
      now sys.state work hwork
    have hqueued : (work.opened inner now sys.state).pending.entries ≠ [] → inner.policy.enabled = true :=
      fun hne => h.queued fun hnil =>
        hne (List.sublist_nil.mp (hnil ▸ work.opened_pending inner now sys.state))
    refine ⟨fun hne => hqueued fun hnil => ?_, ?_⟩
    · rw [hstate] at hne
      exact hne (List.sublist_nil.mp (hnil ▸ hmoves.sublist))
    · rw [hstate]
      refine hmoves.capped hqueued (h.caps.of_sublist ?_)
      rw [Section.opened_active]
      split
      · exact .refl _
      · exact erase_entries_sublist _ _
  · refine ⟨fun _ => henabled.1, ?_⟩
    change Scheduling.Capped inner.policy (sys.queue inner (prepare inner request) started).state
    cases hfull : queueFull inner (prepare inner request) (pruneEvents inner.policy sys.clock sys.state) with
    | true =>
      rw [Sys.queue_full started hfull]
      exact h.caps
    | false =>
      rw [Sys.queue_room started hfull, enqueue_room hfull]
      exact h.caps

/-- Concurrency caps hold in every state of every run, for all limits at once, and as long as ids are
not reused every permit that is out has its id among the active ones. -/
theorem concurrency_caps_kept {sys : Sys} (hrun : (scheduler inner).Run (fun _ _ => True) sys)
    (hacquires : sys.issued < 2 ^ 64) :
    (∀ permit id, sys.Holds permit → permit.reservationId = some id → id ∈ sys.state.active) ∧
    ∀ limit ∈ inner.policy.limits, ∀ cap, limit.maxConcurrency = some cap → ∀ provider authScope,
      limit.provider.all (fun name => name = provider) = true →
      sys.state.activeIn limit provider authScope ≤ cap := by
  have hcapped : sys.Capped inner := hrun.invariant
    ⟨fun hne => absurd rfl hne, fun _ _ _ _ _ _ _ => Nat.zero_le _⟩
    (fun _ _ h henabled _ => h.next henabled)
  exact ⟨(Sys.owned hrun hacquires).backed, hcapped.caps⟩

section Witness

private def oneAtATime : Inner :=
  .plain { enabled := true, limits := [{ maxConcurrency := some 1 }], queueCoalesceMs := 0 }

private def single : ScheduleRequest := .plain "openai" "key" "gpt"

private def twoCallers : Sys := (scheduler oneAtATime).replay .initial [.enqueue single 0, .enqueue single 0,
  .read 1, .pass 1 0 undisturbed]

/-- Of two queued requests one takes the only slot, and its permit is in its channel. -/
theorem concurrency_caps_kept_two :
    (∀ permit id, twoCallers.Holds permit → permit.reservationId = some id → id ∈ twoCallers.state.active) ∧
    ∀ limit ∈ oneAtATime.policy.limits, ∀ cap, limit.maxConcurrency = some cap → ∀ provider authScope,
      limit.provider.all (fun name => name = provider) = true →
      twoCallers.state.activeIn limit provider authScope ≤ cap :=
  concurrency_caps_kept (.replay .initial (by decide)) (by decide)

example : twoCallers.state.active.keys = [0] ∧ twoCallers.state.pending.keys = [1] := by decide

end Witness
end Kaiion.Scheduling
