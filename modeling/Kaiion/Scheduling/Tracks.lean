import Kaiion.Scheduling.Withdrawn

/-! The pacing table against the ledger. As long as a replay finds the tokens that were reserved, the table
shows the pauses of the reservations as they were made. -/
namespace Kaiion.Scheduling
open Foundation

variable {inner : Inner} {granted : List UsageEvent} {key : PacingKey} {now clock time : Nat} {s t : State}

/-- The pause that an event was dispatched with at a key. -/
def reservedPause (inner : Inner) (granted : List UsageEvent) (key : PacingKey) (event : UsageEvent) : Option Nat :=
  (granted.find? (fun other => other.id = event.id)).bind (fun other => other.pause inner key)

/-- Each pause follows the one before, the table has every pause until a window after its end, and what
else is in the table is over. -/
structure Tracks (inner : Inner) (granted : List UsageEvent) (clock : Nat) (s : State) : Prop where
  distinct : (granted.map UsageEvent.id).Nodup
  issued : (s.events.map UsageEvent.id).Sublist (granted.map UsageEvent.id)
  recorded : ∀ event ∈ s.events, event.atTime ≤ clock
  chained : ∀ key, Chained UsageEvent.atTime (reservedPause inner granted key) s.events
  reached : ∀ event ∈ s.events, ∀ key pause, reservedPause inner granted key event = some pause →
    PacedTo s.pacing key (event.atTime + pause) ∨ event.atTime + pause + maxWindow inner.policy ≤ clock
  bounded : ∀ key instant, s.pacing key = some instant → instant ≤ clock ∨
    ∃ event ∈ s.events, ∃ pause, reservedPause inner granted key event = some pause ∧ instant = event.atTime + pause

/-- A reservation that has left every window has served the pause it was dispatched with. -/
def Served (inner : Inner) (granted : List UsageEvent) (clock : Nat) (s : State) : Prop :=
  ∀ event ∈ s.events, ∀ key pause, reservedPause inner granted key event = some pause →
    event.atTime + maxWindow inner.policy ≤ clock → event.atTime + pause ≤ clock

/-- The same of events that others have become, or of fewer. -/
theorem Served.of_old (h : Served inner granted clock s)
    (hold : ∀ event ∈ t.events, ∃ old ∈ s.events, old.id = event.id ∧ old.atTime = event.atTime) :
    Served inner granted clock t := by
  intro event hevent key pause hpause hgone
  obtain ⟨old, hmem, hid, htime⟩ := hold event hevent
  rw [← htime] at hgone ⊢
  refine h old hmem key pause ?_ hgone
  rwa [reservedPause, hid]

theorem Tracks.initial : Tracks inner [] clock .initial where
  distinct := .nil
  issued := .slnil
  recorded _ h := nomatch h
  chained _ := .nil
  reached _ h := nomatch h
  bounded _ _ h := nomatch h

theorem Tracks.alike (h : Tracks inner granted clock t) (halike : Alike s t) : Tracks inner granted clock s where
  distinct := h.distinct
  issued := halike.events ▸ h.issued
  recorded := halike.events ▸ h.recorded
  chained := halike.events ▸ h.chained
  reached := by
    rw [halike.events, halike.pacing]
    exact h.reached
  bounded := by
    rw [halike.events, halike.pacing]
    exact h.bounded

theorem Tracks.later (h : Tracks inner granted clock s) (hle : clock ≤ time) : Tracks inner granted time s where
  distinct := h.distinct
  issued := h.issued
  recorded event hevent := Nat.le_trans (h.recorded event hevent) hle
  chained := h.chained
  reached event hevent key pause hpause :=
    (h.reached event hevent key pause hpause).imp_right fun hold => Nat.le_trans hold hle
  bounded key instant hinstant := (h.bounded key instant hinstant).imp_left fun hold => Nat.le_trans hold hle

theorem Tracks.ids (h : Tracks inner granted clock s) : (s.events.map UsageEvent.id).Nodup :=
  h.issued.nodup h.distinct

theorem Tracks.mem (h : Tracks inner granted clock s) {event : UsageEvent} (hevent : event ∈ s.events) :
    event.id ∈ granted.map UsageEvent.id := h.issued.subset (List.mem_map_of_mem hevent)

variable {event : UsageEvent}

theorem reservedPause_old (h : event.id ∈ granted.map UsageEvent.id) (more : List UsageEvent) :
    reservedPause inner (granted ++ more) key event = reservedPause inner granted key event := by
  obtain ⟨other, hother, heq⟩ := List.mem_map.mp h
  have hsome : (granted.find? (fun other => other.id = event.id)).isSome :=
    List.find?_isSome.mpr ⟨other, hother, decide_eq_true heq⟩
  obtain ⟨found, hfound⟩ := Option.isSome_iff_exists.mp hsome
  unfold reservedPause
  rw [List.find?_append, hfound, Option.some_or]

theorem reservedPause_new (h : event.id ∉ granted.map UsageEvent.id) :
    reservedPause inner (granted ++ [event]) key event = event.pause inner key := by
  have hnone : granted.find? (fun other => other.id = event.id) = none :=
    List.find?_eq_none.mpr fun other hother heq => h (of_decide_eq_true heq ▸ List.mem_map_of_mem hother)
  unfold reservedPause
  rw [List.find?_append, hnone, Option.none_or]
  simp

/-- A reservation elsewhere. -/
theorem Tracks.more (h : Tracks inner granted clock s) (hnew : event.id ∉ granted.map UsageEvent.id) :
    Tracks inner (granted ++ [event]) clock s := by
  have hold : ∀ {other : UsageEvent} {key : PacingKey}, other ∈ s.events →
      reservedPause inner (granted ++ [event]) key other = reservedPause inner granted key other :=
    fun hother => reservedPause_old (h.mem hother) _
  refine ⟨?_, ?_, h.recorded, fun key => ?_, fun other hother key pause hpause => ?_, fun key instant hinstant => ?_⟩
  · rw [List.map_append]
    refine List.nodup_append.mpr ⟨h.distinct, List.nodup_singleton _, fun id hid other hother heq => hnew ?_⟩
    cases List.mem_singleton.mp hother
    exact heq ▸ hid
  · rw [List.map_append]
    exact h.issued.trans (List.sublist_append_left _ _)
  · exact chained_congr (fun other hother => (hold hother).symm) (h.chained key)
  · exact h.reached other hother key pause (hold hother ▸ hpause)
  · refine (h.bounded key instant hinstant).imp_right fun ⟨other, hother, pause, hpause, heq⟩ => ?_
    exact ⟨other, hother, pause, (hold hother).trans hpause, heq⟩

/-- An admitted reservation. -/
theorem Tracks.grant (h : Tracks inner granted clock s) (hnew : event.id ∉ granted.map UsageEvent.id)
    (hnow : now ≤ clock)
    (hprompt : ∀ key pause, event.pause inner key = some pause → clock ≤ now + maxWindow inner.policy)
    (hadmits : Admits inner now s event) :
    Tracks inner (granted ++ [event]) clock ((Change.grant event).apply inner s) := by
  have hmore := h.more hnew
  have hpause : ∀ key, reservedPause inner (granted ++ [event]) key event = event.pause inner key :=
    fun key => reservedPause_new hnew
  have hevents : ((Change.grant event).apply inner s).events = s.events ++ [event] := rfl
  refine ⟨hmore.distinct, ?_, ?_, fun key => ?_, ?_, fun key instant hinstant => ?_⟩
  · rw [hevents, List.map_append, List.map_append]
    exact h.issued.append (.refl _)
  · intro other hother
    rcases List.mem_append.mp hother with hother | hother
    · exact h.recorded other hother
    · cases List.mem_singleton.mp hother
      exact hadmits.atTime ▸ hnow
  · refine List.pairwise_append.mpr ⟨hmore.chained key, List.pairwise_singleton _ _, ?_⟩
    intro other hother new hnew' p q hp hq
    cases List.mem_singleton.mp hnew'
    rw [hpause] at hq
    rw [hadmits.atTime]
    -- Its pause is in the table still, or ended a window ago.
    rcases hmore.reached other hother key p hp with ⟨instant, hinstant, hle⟩ | hold
    · exact Nat.le_trans hle (hadmits.clear key q hq instant hinstant)
    · have hlate := hprompt key q hq
      omega
  · intro other hother key pause hother'
    rcases List.mem_append.mp hother with hother | hother
    · exact (hmore.reached other hother key pause hother').imp_left updatePacing_keeps
    · cases List.mem_singleton.mp hother
      rw [hpause] at hother'
      refine .inl ⟨_, (grant_pacing inner s event key).trans (by rw [hother']; rfl), ?_⟩
      omega
  · rw [grant_pacing] at hinstant
    cases hcost : event.pause inner key with
    | none =>
      rw [hcost] at hinstant
      refine (hmore.bounded key instant hinstant).imp_right fun ⟨other, hother, hrest⟩ => ?_
      exact ⟨other, List.mem_append_left _ hother, hrest⟩
    | some pause =>
      have hclear := hadmits.clear key pause hcost
      rw [hcost, pushBack_of_le (hadmits.atTime ▸ hclear)] at hinstant
      refine .inr ⟨event, List.mem_append_right _ (List.mem_singleton.mpr rfl), pause, ?_, ?_⟩
      · rw [hpause, hcost]
      · exact (Option.some.inj hinstant).symm

/-- What a completion makes of an event. -/
def UsageEvent.rewritten (id : Nat) (inputTokens outputTokens : Option Nat) (event : UsageEvent) : UsageEvent :=
  if event.id = id then
    { event with
      inputTokens := inputTokens.getD event.inputTokens
      outputTokens := outputTokens.getD event.outputTokens }
  else event

variable {id : Nat} {inputTokens outputTokens : Option Nat}

@[simp] theorem rewritten_id (event : UsageEvent) : (event.rewritten id inputTokens outputTokens).id = event.id := by
  unfold UsageEvent.rewritten
  split <;> rfl

@[simp] theorem rewritten_atTime (event : UsageEvent) :
    (event.rewritten id inputTokens outputTokens).atTime = event.atTime := by
  unfold UsageEvent.rewritten
  split <;> rfl

theorem rewritten_of_ne (h : event.id ≠ id) : event.rewritten id inputTokens outputTokens = event := if_neg h

theorem rewriteUsage_eq {events : List UsageEvent} (h : (events.map UsageEvent.id).Nodup) :
    rewriteUsage id inputTokens outputTokens events = events.map (UsageEvent.rewritten id inputTokens outputTokens) := by
  induction events with
  | nil => rfl
  | cons event events ih =>
    obtain ⟨hnew, hrest⟩ := List.nodup_cons.mp h
    unfold rewriteUsage
    rw [List.map_cons]
    by_cases hid : event.id = id
    · have hothers : events.map (UsageEvent.rewritten id inputTokens outputTokens) = events := by
        refine (List.map_congr_left fun other hother => rewritten_of_ne fun heq => hnew ?_).trans (List.map_id events)
        exact (hid.trans heq.symm) ▸ List.mem_map_of_mem hother
      rw [if_pos hid, hothers, UsageEvent.rewritten, if_pos hid]
    · rw [if_neg hid, rewritten_of_ne hid, ih hrest]

theorem settle_events (h : Tracks inner granted clock s) (id : Nat) (inputTokens outputTokens : Option Nat) :
    ((Change.settle id inputTokens outputTokens).apply inner s).events =
      s.events.map (UsageEvent.rewritten id inputTokens outputTokens) := rewriteUsage_eq h.ids

@[simp] theorem reservedPause_rewritten (event : UsageEvent) :
    reservedPause inner granted key (event.rewritten id inputTokens outputTokens) =
      reservedPause inner granted key event := by
  unfold reservedPause
  rw [rewritten_id]

/-- The table keeps the pauses of the reservations. -/
theorem Tracks.settle (h : Tracks inner granted clock s) (id : Nat) (inputTokens outputTokens : Option Nat) :
    Tracks inner granted clock ((Change.settle id inputTokens outputTokens).apply inner s) := by
  have hevents := settle_events h id inputTokens outputTokens
  have hold : ∀ event ∈ ((Change.settle id inputTokens outputTokens).apply inner s).events, ∃ old ∈ s.events,
      event = old.rewritten id inputTokens outputTokens := by
    intro event hevent
    rw [hevents] at hevent
    obtain ⟨old, hold, rfl⟩ := List.mem_map.mp hevent
    exact ⟨old, hold, rfl⟩
  refine ⟨h.distinct, ?_, fun event hevent => ?_, fun key => ?_, fun event hevent key pause hpause => ?_,
    fun key instant hinstant => ?_⟩
  · rw [hevents, List.map_map]
    refine Eq.subst (motive := fun ids : List Nat => ids.Sublist _) ?_ h.issued
    exact List.map_congr_left fun event _ => (rewritten_id event).symm
  · obtain ⟨old, hmem, rfl⟩ := hold event hevent
    rw [rewritten_atTime]
    exact h.recorded old hmem
  · rw [hevents]
    refine List.pairwise_map.mpr ((h.chained key).imp fun {a b} hover p q hp hq => ?_)
    rw [reservedPause_rewritten] at hp hq
    rw [rewritten_atTime, rewritten_atTime]
    exact hover p q hp hq
  · obtain ⟨old, hmem, rfl⟩ := hold event hevent
    rw [reservedPause_rewritten] at hpause
    rw [rewritten_atTime]
    exact h.reached old hmem key pause hpause
  · refine (h.bounded key instant hinstant).imp_right fun ⟨old, hmem, pause, hpause, heq⟩ => ?_
    refine ⟨old.rewritten id inputTokens outputTokens, ?_, pause, ?_, ?_⟩
    · rw [hevents]
      exact List.mem_map_of_mem hmem
    · rw [reservedPause_rewritten, hpause]
    · rw [rewritten_atTime, heq]

theorem Tracks.release (h : Tracks inner granted clock s) (id : Nat) :
    Tracks inner granted clock ((Change.release id).apply inner s) :=
  ⟨h.distinct, h.issued, h.recorded, h.chained, h.reached, h.bounded⟩

/-- Every other event costs what it was dispatched with. -/
def Unrewritten (inner : Inner) (granted : List UsageEvent) (id : Nat) (s : State) : Prop :=
  ∀ event ∈ s.events, event.id ≠ id → ∀ key, event.pause inner key = reservedPause inner granted key event

theorem revoke_events (inner : Inner) (id : Nat) (s : State) :
    (s.revoke inner id).events = s.events.filter (fun event => event.id ≠ id) := by
  obtain ⟨_, h⟩ := @revoke_eq inner id s
  rw [h]

theorem revoke_active (inner : Inner) (id : Nat) (s : State) : (s.revoke inner id).active = s.active.erase id := by
  obtain ⟨_, h⟩ := @revoke_eq inner id s
  rw [h]

theorem mem_revoke (h : event ∈ (s.revoke inner id).events) : event ∈ s.events ∧ event.id ≠ id := by
  rw [revoke_events] at h
  exact ⟨(List.mem_filter.mp h).1, of_decide_eq_true (List.mem_filter.mp h).2⟩

theorem mem_revoke_of_ne (h : event ∈ s.events) (hne : event.id ≠ id) : event ∈ (s.revoke inner id).events := by
  rw [revoke_events]
  exact List.mem_filter.mpr ⟨h, decide_eq_true hne⟩

/-- The table is then the replay of the reservations that are left. -/
theorem revoke_pacing (hreserved : Unrewritten inner granted id s) : (s.revoke inner id).pacing key =
    replayed UsageEvent.atTime (reservedPause inner granted key) (s.revoke inner id).events := by
  have hreplayed : (s.revoke inner id).pacing key =
      replayed UsageEvent.atTime (fun event => event.pause inner key) (s.retract id).events := rebuildPacing_key
  rw [hreplayed, revoke_events]
  refine replayed_congr fun event hevent => ?_
  obtain ⟨hmem, hne⟩ := List.mem_filter.mp hevent
  exact hreserved event hmem (of_decide_eq_true hne) key

theorem Tracks.chained_revoke (h : Tracks inner granted clock s) (id : Nat) (key : PacingKey) :
    Chained UsageEvent.atTime (reservedPause inner granted key) (s.revoke inner id).events := by
  rw [revoke_events]
  exact (h.chained key).sublist List.filter_sublist

theorem Tracks.revoke (h : Tracks inner granted clock s) (hreserved : Unrewritten inner granted id s) :
    Tracks inner granted clock ((Change.revoke id).apply inner s) := by
  refine ⟨h.distinct, ?_, fun event hevent => h.recorded event (mem_revoke hevent).1, h.chained_revoke id,
    fun event hevent key pause hpause => .inl ?_, fun key instant hinstant => .inr ?_⟩
  · rw [Change.apply, revoke_events]
    exact (List.filter_sublist.map _).trans h.issued
  · obtain ⟨instant, hinstant, hle⟩ := le_replayed (h.chained_revoke id key) hevent hpause
    exact ⟨instant, (revoke_pacing hreserved).trans hinstant, hle⟩
  · exact replayed_mem (h.chained_revoke id key) ((revoke_pacing hreserved).symm.trans hinstant)

theorem prune_pacing (inner : Inner) (now : Nat) (s : State) (key : PacingKey) :
    ((Change.prune now).apply inner s).pacing key =
      (s.pacing key).filter (fun paced => now < paced || now - paced < maxWindow inner.policy) := rfl

/-- An event that is pruned is out of every window. -/
theorem Tracks.pruned (h : Tracks inner granted clock s) (hnow : now ≤ clock) (hevent : event ∈ s.events) :
    event ∈ ((Change.prune now).apply inner s).events ∨ event.atTime + maxWindow inner.policy ≤ clock := by
  have hrecorded := h.recorded event hevent
  rcases mem_pruneEvents hevent with hkept | hold
  · exact .inl hkept
  · exact .inr (by omega)

/-- A timer that is pruned ran out a window ago. -/
theorem pruned_timer (inner : Inner) (now : Nat) {instant : Nat} (hinstant : s.pacing key = some instant) :
    ((Change.prune now).apply inner s).pacing key = some instant ∨
      ((Change.prune now).apply inner s).pacing key = none ∧ instant ≤ now ∧
        instant + maxWindow inner.policy ≤ now := by
  rw [prune_pacing, hinstant]
  by_cases hkept : (now < instant || now - instant < maxWindow inner.policy) = true
  · exact .inl (by rw [Option.filter_some, if_pos hkept])
  · refine .inr ⟨by rw [Option.filter_some, if_neg hkept], ?_⟩
    simp only [Bool.or_eq_true, decide_eq_true_eq, not_or, Nat.not_lt] at hkept
    omega

theorem timer_of_pruned {instant : Nat} (h : ((Change.prune now).apply inner s).pacing key = some instant) :
    s.pacing key = some instant := (Option.filter_eq_some_iff.mp h).1

theorem Tracks.prune (h : Tracks inner granted clock s) (hserved : Served inner granted clock s) (hnow : now ≤ clock) :
    Tracks inner granted clock ((Change.prune now).apply inner s) := by
  have hsub : ((Change.prune now).apply inner s).events.Sublist s.events := List.dropWhile_sublist _
  refine ⟨h.distinct, (hsub.map _).trans h.issued, fun event hevent => h.recorded event (hsub.subset hevent),
    fun key => (h.chained key).sublist hsub, fun event hevent key pause hpause => ?_, fun key instant hinstant => ?_⟩
  · rcases h.reached event (hsub.subset hevent) key pause hpause with ⟨instant, hinstant, hle⟩ | hold
    · rcases pruned_timer inner now hinstant with hkept | ⟨-, -, hold⟩
      · exact .inl ⟨instant, hkept, hle⟩
      · exact .inr (by omega)
    · exact .inr hold
  · rcases h.bounded key instant (timer_of_pruned hinstant) with hover | ⟨event, hevent, pause, hpause, heq⟩
    · exact .inl hover
    · rcases h.pruned hnow hevent with hkept | hold
      · exact .inr ⟨event, hkept, pause, hpause, heq⟩
      · exact .inl (heq ▸ hserved event hevent key pause hpause hold)

end Kaiion.Scheduling
