import Kaiion.Scheduling.Pass
import Mathlib.Data.List.TakeWhile

/-! What a critical section changes: its edits field by field, and then moves. -/
namespace Kaiion.Scheduling
open Foundation

variable {inner : Inner} {now : Nat} {s : State}

@[simp] theorem clearCoalesce_pending (s : State) : s.clearCoalesce.pending = s.pending := by
  unfold State.clearCoalesce
  split <;> rfl

@[simp] theorem clearCoalesce_events (s : State) : s.clearCoalesce.events = s.events := by
  unfold State.clearCoalesce
  split <;> rfl

@[simp] theorem clearCoalesce_active (s : State) : s.clearCoalesce.active = s.active := by
  unfold State.clearCoalesce
  split <;> rfl

@[simp] theorem clearCoalesce_pacing (s : State) : s.clearCoalesce.pacing = s.pacing := by
  unfold State.clearCoalesce
  split <;> rfl

@[simp] theorem clearCoalesce_nextId (s : State) : s.clearCoalesce.nextId = s.nextId := by
  unfold State.clearCoalesce
  split <;> rfl

/-- Replaying the ledger into the pacing changes nothing else. -/
theorem rebuildPacing_eq (inner : Inner) (s : State) : ∃ pacing, rebuildPacing inner s = { s with pacing } := by
  have replay : ∀ (events : List UsageEvent) (s : State), ∃ pacing,
      events.foldl (fun s event => updatePacing inner event.request event.inputTokens event.outputTokens
        event.atTime s) s = { s with pacing } := by
    intro events
    induction events with
    | nil => exact fun s => ⟨s.pacing, rfl⟩
    | cons event events ih =>
      intro s
      obtain ⟨pacing, hpacing⟩ := ih (updatePacing inner event.request event.inputTokens event.outputTokens
        event.atTime s)
      exact ⟨pacing, by rw [List.foldl_cons, hpacing]; rfl⟩
  exact replay s.events _

theorem revoke_eq (inner : Inner) (id : Nat) (s : State) : ∃ pacing,
    s.revoke inner id = { s with
      events := s.events.filter (fun event => event.id ≠ id), active := s.active.erase id, pacing } :=
  rebuildPacing_eq inner (s.retract id)

theorem recordSession_eq (now : Nat) (permit : SchedulePermit) (cacheReadHit : Option Bool) (s : State) :
    ∃ sessions, s.recordSession now permit cacheReadHit = { s with sessions } := by
  unfold State.recordSession
  split
  · exact ⟨s.sessions, rfl⟩
  · exact ⟨_, rfl⟩

theorem settle_eq (now : Nat) (permit : SchedulePermit) (inputTokens outputTokens : Option Nat)
    (cacheReadHit : Option Bool) (s : State) : ∃ sessions,
    s.settle now permit inputTokens outputTokens cacheReadHit = { s with
      events := match permit.reservationId with
        | none => s.events
        | some id => rewriteUsage id inputTokens outputTokens s.events
      active := match permit.reservationId with
        | none => s.active
        | some id => s.active.erase id
      sessions } := by
  unfold State.settle
  obtain ⟨sessions, h⟩ := recordSession_eq now permit cacheReadHit (match permit.reservationId with
    | none => s
    | some id =>
      { s with
        active := s.active.erase id
        events := rewriteUsage id inputTokens outputTokens s.events })
  refine ⟨sessions, h.trans ?_⟩
  cases permit.reservationId <;> rfl

/-- Completion rewrites what an event has used, not what it is. -/
theorem rewriteUsage_mem {id : Nat} {inputTokens outputTokens : Option Nat} {events : List UsageEvent}
    {event : UsageEvent} (h : event ∈ rewriteUsage id inputTokens outputTokens events) :
    ∃ old ∈ events, old.id = event.id ∧ old.atTime = event.atTime := by
  induction events with
  | nil => exact nomatch h
  | cons first rest ih =>
    unfold rewriteUsage at h
    split at h
    · rcases List.mem_cons.mp h with rfl | h
      · exact ⟨first, List.mem_cons_self, rfl, rfl⟩
      · exact ⟨event, List.mem_cons_of_mem _ h, rfl, rfl⟩
    · rcases List.mem_cons.mp h with rfl | h
      · exact ⟨event, List.mem_cons_self, rfl, rfl⟩
      · obtain ⟨old, hold, heq⟩ := ih h
        exact ⟨old, List.mem_cons_of_mem _ hold, heq⟩

/-- Pruning takes out only what is out of every window. -/
theorem mem_pruneEvents {policy : SchedulingPolicy} {event : UsageEvent} (h : event ∈ s.events) :
    event ∈ (pruneEvents policy now s).events ∨ maxWindow policy ≤ now - event.atTime := by
  rw [← List.takeWhile_append_dropWhile (p := fun event : UsageEvent => maxWindow policy ≤ now - event.atTime)
    (l := s.events)] at h
  rcases List.mem_append.mp h with h | h
  · have hold := List.mem_takeWhile_imp h
    exact .inr (of_decide_eq_true hold)
  · exact .inl h

private theorem dropWhile_filter {α : Type} {f g : α → Bool} (h : ∀ a, f a = true → g a = false) (items : List α) :
    (items.dropWhile f).filter g = items.filter g := by
  induction items with
  | nil => rfl
  | cons item items ih =>
    rw [List.dropWhile_cons]
    split
    next hf =>
      have hg : ¬ g item = true := by rw [h item hf]; exact Bool.false_ne_true
      rw [ih, List.filter_cons_of_neg hg]
    · rfl

/-- What is within every window stays. -/
theorem pruneEvents_recent {policy : SchedulingPolicy} {time : Nat} (hnow : now ≤ time) (s : State) :
    (pruneEvents policy now s).events.filter (fun event => time - event.atTime < maxWindow policy) =
      s.events.filter (fun event => time - event.atTime < maxWindow policy) := by
  refine dropWhile_filter (fun event hold => ?_) s.events
  rw [decide_eq_true_eq] at hold
  exact decide_eq_false (by omega)

/-- Opening a section only takes entries out of the queue. -/
theorem Section.opened_pending (inner : Inner) (now : Nat) (s : State) (work : Section) :
    (work.opened inner now s).pending.entries.Sublist s.pending.entries := by
  have edited : (work.edit inner now s).pending.entries.Sublist s.pending.entries := by
    cases work with
    | enqueue | pass => exact .refl _
    | expire id | dropPending id =>
      simpa [Section.edit, State.withdraw] using erase_entries_sublist id s.pending
    | complete permit inputTokens outputTokens cacheReadHit =>
      obtain ⟨sessions, h⟩ := settle_eq now permit inputTokens outputTokens cacheReadHit s
      rw [Section.edit, h]
    | abort id =>
      obtain ⟨pacing, h⟩ := revoke_eq inner id s
      rw [Section.edit, h]
    | dropLease id => exact .refl _
  unfold Section.opened
  split <;> exact edited

/-- The reservation whose concurrency slot a section gives back. -/
def Section.releases : Section → Option Nat
  | .complete permit _ _ _ => permit.reservationId
  | .abort id | .dropLease id => some id
  | _ => none

theorem Section.opened_active (inner : Inner) (now : Nat) (s : State) (work : Section) :
    (work.opened inner now s).active = match work.releases with
      | none => s.active
      | some id => s.active.erase id := by
  have edited : (work.edit inner now s).active = match work.releases with
      | none => s.active
      | some id => s.active.erase id := by
    cases work with
    | enqueue | pass | dropLease => rfl
    | expire id | dropPending id => simp [Section.edit, Section.releases, State.withdraw]
    | complete permit inputTokens outputTokens cacheReadHit =>
      obtain ⟨sessions, h⟩ := settle_eq now permit inputTokens outputTokens cacheReadHit s
      rw [Section.edit, h]
      rfl
    | abort id =>
      obtain ⟨pacing, h⟩ := revoke_eq inner id s
      rw [Section.edit, h]
      rfl
  unfold Section.opened
  split <;> exact edited

theorem Section.opened_nextId (inner : Inner) (now : Nat) (s : State) (work : Section) :
    (work.opened inner now s).nextId = s.nextId := by
  have edited : (work.edit inner now s).nextId = s.nextId := by
    cases work with
    | enqueue | pass | dropLease => rfl
    | expire id | dropPending id => simp [Section.edit, State.withdraw]
    | complete permit inputTokens outputTokens cacheReadHit =>
      obtain ⟨sessions, h⟩ := settle_eq now permit inputTokens outputTokens cacheReadHit s
      rw [Section.edit, h]
    | abort id =>
      obtain ⟨pacing, h⟩ := revoke_eq inner id s
      rw [Section.edit, h]
  unfold Section.opened
  split <;> exact edited

/-- Edits invent no event and leave the recorded times alone. -/
theorem Section.edit_events {work : Section} {event : UsageEvent}
    (h : event ∈ (work.edit inner now s).events) :
    ∃ old ∈ s.events, old.id = event.id ∧ old.atTime = event.atTime := by
  cases work with
  | enqueue | pass | dropLease => exact ⟨event, h, rfl, rfl⟩
  | expire id | dropPending id => exact ⟨event, by simpa [Section.edit, State.withdraw] using h, rfl, rfl⟩
  | complete permit inputTokens outputTokens cacheReadHit =>
    obtain ⟨sessions, heq⟩ := settle_eq now permit inputTokens outputTokens cacheReadHit s
    rw [Section.edit, heq] at h
    dsimp only at h
    split at h
    · exact ⟨event, h, rfl, rfl⟩
    · exact rewriteUsage_mem h
  | abort id =>
    obtain ⟨pacing, heq⟩ := revoke_eq inner id s
    rw [Section.edit, heq] at h
    exact ⟨event, (List.mem_filter.mp h).1, rfl, rfl⟩

theorem Section.opened_events {work : Section} {event : UsageEvent}
    (h : event ∈ (work.opened inner now s).events) : event ∈ (work.edit inner now s).events := by
  unfold Section.opened at h
  split at h
  · exact (List.dropWhile_sublist _).subset h
  · exact h

/-- Leaving the queue for good is a move. -/
theorem withdraw_moves (inner : Inner) (mayOpen : Nat → Prop) (now id : Nat) (s : State) :
    Moves inner mayOpen now s [] [] (s.withdraw id) := by
  have calmed : ∀ s : State, Moves inner mayOpen now s [] [] s.clearCoalesce := by
    intro s
    unfold State.clearCoalesce
    split
    next hempty => exact .calm (.inl hempty) (.stop _)
    · exact .stop _
  unfold State.withdraw
  cases found : s.pending.lookup id with
  | none =>
    have hsame : s.removePending id = s := by simp [State.removePending, found]
    rw [hsame]
    exact calmed s
  | some pending => exact .discard id pending found (calmed _)

/-- The section puts a request into the queue. -/
def Section.queues : Section → Bool
  | .enqueue _ _ => true
  | _ => false

/-- Once its state is open, a section that queues nothing only moves. -/
theorem Section.run_moves (inner : Inner) {closed : Nat → Closings} {mayOpen : Nat → Prop}
    (hopen : ∀ n c, closed n .send c = false → mayOpen c) (now : Nat) (s : State) {work : Section}
    (hwork : work.queues = false) :
    Moves inner mayOpen now (work.opened inner now s) (work.run inner closed now s).sent
      (work.run inner closed now s).returned (work.run inner closed now s).state := by
  cases work with
  | enqueue sender request => cases hwork
  | pass id request =>
    unfold Section.run
    dsimp only
    split
    · exact withdraw_moves inner mayOpen now id _
    · exact dispatchReady_moves inner (hopen 0) now _
  | expire id => exact .stop _
  | dropLease id =>
    unfold Section.run
    dsimp only
    split
    · exact dispatchAvailable_moves inner hopen now _
    · exact .stop _
  | complete | abort | dropPending => exact dispatchAvailable_moves inner hopen now _

theorem enqueue_events (inner : Inner) (now sender : Nat) (request : ScheduleRequest) (s : State) :
    (s.enqueue inner now sender request).events = s.events := by
  unfold State.enqueue
  split <;> rfl

theorem enqueue_pacing (inner : Inner) (now sender : Nat) (request : ScheduleRequest) (s : State) :
    (s.enqueue inner now sender request).pacing = s.pacing := by
  unfold State.enqueue
  split <;> rfl

end Kaiion.Scheduling
