import Kaiion.Scheduling.Tracks

/-! What the two states of a run beside itself without one permit have in common while that permit is out. -/
namespace Kaiion.Scheduling
open Foundation

variable {inner : Inner} {p : Nat} {granted : List UsageEvent} {now clock time : Nat} {s t u : State} {event : UsageEvent}

/-- The state without the permit lacks its reservation, and beside that only what is out of every window. -/
structure Coupled (inner : Inner) (p clock : Nat) (s u : State) : Prop where
  events : u.events.Sublist s.events
  others : ∀ event ∈ u.events, event.id ≠ p
  kept : ∀ event ∈ s.events, event.id ≠ p → event ∈ u.events ∨ event.atTime + maxWindow inner.policy ≤ clock
  active : u.active = s.active.erase p
  behind : ∀ key instant, u.pacing key = some instant → PacedTo s.pacing key instant

theorem Coupled.initial : Coupled inner p clock .initial .initial :=
  ⟨.slnil, fun _ h => (nomatch h), fun _ h => (nomatch h), rfl, fun _ _ h => (nomatch h)⟩

theorem Coupled.alike (h : Coupled inner p clock t u) (halike : Alike s t) : Coupled inner p clock s u where
  events := halike.events ▸ h.events
  others := h.others
  kept := halike.events ▸ h.kept
  active := halike.active ▸ h.active
  behind := halike.pacing ▸ h.behind

theorem Coupled.later (h : Coupled inner p clock s u) (hle : clock ≤ time) : Coupled inner p time s u where
  events := h.events
  others := h.others
  kept event hevent hother := (h.kept event hevent hother).imp_right fun hold => Nat.le_trans hold hle
  active := h.active
  behind := h.behind

/-- A reservation for another permit. -/
theorem Coupled.grant (h : Coupled inner p clock s u) (hother : event.id ≠ p) :
    Coupled inner p clock ((Change.grant event).apply inner s) ((Change.grant event).apply inner u) where
  events := h.events.append (.refl _)
  others other hmem := by
    rcases List.mem_append.mp hmem with hmem | hmem
    · exact h.others other hmem
    · cases List.mem_singleton.mp hmem
      exact hother
  kept other hmem hne := by
    rcases List.mem_append.mp hmem with hmem | hmem
    · exact (h.kept other hmem hne).imp_left (List.mem_append_left _)
    · exact .inl (List.mem_append_right _ hmem)
  active := by
    change u.active.insert event.id event.activeRequest = (s.active.insert event.id event.activeRequest).erase p
    rw [h.active, insert_erase hother]
  behind key instant hinstant := by
    rw [grant_pacing] at hinstant
    obtain ⟨later, hlater, hle⟩ := pushBack_mono (h.behind key) event.atTime _ hinstant
    exact ⟨later, (grant_pacing inner s event key).trans hlater, hle⟩

/-- The reservation that is not made on the other side. -/
theorem Coupled.grantOwn (h : Coupled inner p clock s u) (hown : event.id = p) :
    Coupled inner p clock ((Change.grant event).apply inner s) u where
  events := h.events.trans (List.sublist_append_left _ _)
  others := h.others
  kept other hmem hne := by
    rcases List.mem_append.mp hmem with hmem | hmem
    · exact h.kept other hmem hne
    · cases List.mem_singleton.mp hmem
      exact absurd hown hne
  active := by
    change u.active = (s.active.insert event.id event.activeRequest).erase p
    rw [hown, erase_insert, h.active]
  behind key instant hinstant := updatePacing_keeps (h.behind key instant hinstant)

theorem Coupled.settle (h : Coupled inner p clock s u) (hs : Tracks inner granted clock s)
    (hu : Tracks inner granted clock u) (id : Nat) (inputTokens outputTokens : Option Nat) :
    Coupled inner p clock ((Change.settle id inputTokens outputTokens).apply inner s)
      ((Change.settle id inputTokens outputTokens).apply inner u) where
  events := by
    rw [settle_events hs, settle_events hu]
    exact h.events.map _
  others event hevent := by
    rw [settle_events hu] at hevent
    obtain ⟨old, hold, rfl⟩ := List.mem_map.mp hevent
    rw [rewritten_id]
    exact h.others old hold
  kept event hevent hne := by
    rw [settle_events hs] at hevent
    obtain ⟨old, hold, rfl⟩ := List.mem_map.mp hevent
    rw [rewritten_id] at hne
    rw [settle_events hu, rewritten_atTime]
    exact (h.kept old hold hne).imp_left List.mem_map_of_mem
  active := (congrArg (AList.erase id) h.active).trans (AList.erase_erase p id s.active)
  behind := h.behind

theorem Coupled.release (h : Coupled inner p clock s u) (id : Nat) :
    Coupled inner p clock ((Change.release id).apply inner s) ((Change.release id).apply inner u) where
  events := h.events
  others := h.others
  kept := h.kept
  active := (congrArg (AList.erase id) h.active).trans (AList.erase_erase p id s.active)
  behind := h.behind

theorem Unrewritten.sublist {id : Nat} (h : Unrewritten inner granted id s) (hsub : u.events.Sublist s.events) :
    Unrewritten inner granted id u := fun event hevent => h event (hsub.subset hevent)

/-- An abort of another permit replays both ledgers. -/
theorem Coupled.revoke {id : Nat} (h : Coupled inner p clock s u) (hs : Tracks inner granted clock s)
    (hu : Tracks inner granted clock u) (hreserved : Unrewritten inner granted id s) :
    Coupled inner p clock ((Change.revoke id).apply inner s) ((Change.revoke id).apply inner u) where
  events := by
    rw [Change.apply, Change.apply, revoke_events, revoke_events]
    exact h.events.filter _
  others event hevent := h.others event (mem_revoke hevent).1
  kept event hevent hne := by
    obtain ⟨hmem, hleft⟩ := mem_revoke hevent
    exact (h.kept event hmem hne).imp_left fun hkept => mem_revoke_of_ne hkept hleft
  active := by
    rw [Change.apply, Change.apply, revoke_active, revoke_active, h.active]
    exact AList.erase_erase p id s.active
  behind key instant hinstant := by
    have hreplayed := (revoke_pacing (hreserved.sublist h.events)).symm.trans hinstant
    obtain ⟨event, hevent, pause, hpause, rfl⟩ := replayed_mem (hu.chained_revoke id key) hreplayed
    obtain ⟨hmem, hleft⟩ := mem_revoke hevent
    have hother : event ∈ (s.revoke inner id).events := mem_revoke_of_ne (h.events.subset hmem) hleft
    obtain ⟨later, hlater, hle⟩ := le_replayed (hs.chained_revoke id key) hother hpause
    exact ⟨later, (revoke_pacing hreserved).trans hlater, hle⟩

private theorem dropWhile_sublist_dropWhile {α : Type} {items others : List α} (h : items.Sublist others)
    (f : α → Bool) : (items.dropWhile f).Sublist (others.dropWhile f) := by
  induction h with
  | slnil => exact .slnil
  | @cons items others item hsub ih =>
    rw [List.dropWhile_cons]
    split
    · exact ih
    · exact ((List.dropWhile_sublist f).trans hsub).cons item
  | cons_cons item hsub ih =>
    rw [List.dropWhile_cons, List.dropWhile_cons]
    split
    · exact ih
    · exact hsub.cons_cons item

theorem Coupled.prune (h : Coupled inner p clock s u) (hu : Tracks inner granted clock u) (hnow : now ≤ clock) :
    Coupled inner p clock ((Change.prune now).apply inner s) ((Change.prune now).apply inner u) where
  events := dropWhile_sublist_dropWhile h.events _
  others event hevent := h.others event ((List.dropWhile_sublist _).subset hevent)
  kept event hevent hne := by
    rcases h.kept event ((List.dropWhile_sublist _).subset hevent) hne with hkept | hold
    · exact hu.pruned hnow hkept
    · exact .inr hold
  active := h.active
  behind key instant hinstant := by
    obtain ⟨later, hlater, hle⟩ := h.behind key instant (timer_of_pruned hinstant)
    rcases pruned_timer inner now hlater with hkept | ⟨-, hover, hold⟩
    · exact ⟨later, hkept, hle⟩
    · -- The earlier timer would have been pruned as well.
      have hahead := (Option.filter_eq_some_iff.mp hinstant).2
      simp only [Bool.or_eq_true, decide_eq_true_eq] at hahead
      omega

/-- Both sides together. -/
structure Paired (inner : Inner) (p : Nat) (granted : List UsageEvent) (clock : Nat) (s u : State) : Prop where
  tracks : Tracks inner granted clock s
  without : Tracks inner granted clock u
  coupled : Coupled inner p clock s u

theorem Paired.later (h : Paired inner p granted clock s u) (hle : clock ≤ time) : Paired inner p granted time s u :=
  ⟨h.tracks.later hle, h.without.later hle, h.coupled.later hle⟩

theorem Paired.alike (h : Paired inner p granted clock t u) (halike : Alike s t) : Paired inner p granted clock s u :=
  ⟨h.tracks.alike halike, h.without, h.coupled.alike halike⟩

/-- What is admitted on one side is admitted on the other. -/
theorem Coupled.admits (h : Coupled inner p clock s u) (hadmits : Admits inner now s event) : Admits inner now u event where
  atTime := hadmits.atTime
  clear key pause hpause instant hinstant := by
    obtain ⟨later, hlater, hle⟩ := h.behind key instant hinstant
    exact Nat.le_trans hle (hadmits.clear key pause hpause later hlater)

theorem others_grant_of_ne (h : event.id ≠ p) (changes : List Change) :
    others p (.grant event :: changes) = .grant event :: others p changes :=
  List.filter_cons_of_pos (decide_eq_true fun heq => h (Option.some.inj heq))

theorem others_grant_of_eq (h : event.id = p) (changes : List Change) :
    others p (.grant event :: changes) = others p changes :=
  List.filter_cons_of_neg fun hne => of_decide_eq_true hne (congrArg some h)

/-- The reservations of a pass. -/
theorem Paired.grants (h : Paired inner p granted clock s u) (hnow : now ≤ clock)
    (hprompt : ∀ (event : UsageEvent) key pause, event.pause inner key = some pause →
      clock ≤ now + maxWindow inner.policy)
    {events : List UsageEvent} (hadmitted : Admitted inner now s events)
    (hdistinct : ((granted ++ events).map UsageEvent.id).Nodup) :
    Paired inner p (granted ++ events) clock (applied inner s (events.map .grant))
      (applied inner u (others p (events.map .grant))) := by
  induction events generalizing granted s u with
  | nil =>
    rw [List.append_nil]
    exact h
  | cons event events ih =>
    obtain ⟨hadmits, hrest⟩ := hadmitted
    have hnew : event.id ∉ granted.map UsageEvent.id := by
      rw [List.map_append] at hdistinct
      exact fun hmem => (List.nodup_append.mp hdistinct).2.2 _ hmem _ List.mem_cons_self rfl
    have htracks := h.tracks.grant hnew hnow (hprompt event) hadmits
    rw [List.append_cons] at hdistinct ⊢
    rw [List.map_cons]
    by_cases hown : event.id = p
    · rw [others_grant_of_eq hown]
      exact ih ⟨htracks, h.without.more hnew, h.coupled.grantOwn hown⟩ hrest hdistinct
    · rw [others_grant_of_ne hown]
      exact ih ⟨htracks, h.without.grant hnew hnow (hprompt event) (h.coupled.admits hadmits),
        h.coupled.grant hown⟩ hrest hdistinct

end Kaiion.Scheduling
