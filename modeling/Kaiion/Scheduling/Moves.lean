import Kaiion.Foundation.Keyed
import Kaiion.Scheduling.Section

/-! A dispatch pass as a chain of small moves. Every fact about what a pass changes follows from
what one move changes. -/
namespace Kaiion.Scheduling
open Foundation

/-- The fit lets the request through at `instant`. -/
def Fit.readyBy (fit : Fit) (instant : Nat) : Bool :=
  !fit.impossible && fit.atTime.any (fun time => time ≤ instant)

/-- The request may be sent at `instant`, should the state not change until then. -/
def Pending.readyAt (inner : Inner) (s : State) (pending : Pending) (instant : Nat) : Bool :=
  (pending.fit inner s instant).readyBy instant

/-- The state after a reservation was made for a queued request and its permit was sent. -/
def State.grant (inner : Inner) (id now : Nat) (pending : Pending) (s : State) : State :=
  updatePacing inner pending.request pending.inputTokens pending.outputTokens now
    ((s.removePending id).reserve id now pending)

/-- The moves of passes with the clock reading `now`; a permit is sent only into a channel that
may still be open. -/
inductive Moves (inner : Inner) (mayOpen : Nat → Prop) (now : Nat) :
    State → List (Nat × ScheduleOutcome) → List Nat → State → Prop where
  | stop (s : State) : Moves inner mayOpen now s [] [] s
  | calm {s t : State} {sent : List (Nat × ScheduleOutcome)} {returned : List Nat}
      (settled : s.pending.entries = [] ∨ queueReady s now = true)
      (rest : Moves inner mayOpen now { s with coalesceUntil := none } sent returned t) :
      Moves inner mayOpen now s sent returned t
  | discard {s t : State} {sent : List (Nat × ScheduleOutcome)} {returned : List Nat} (id : Nat)
      (pending : Pending) (found : s.pending.lookup id = some pending)
      (rest : Moves inner mayOpen now (s.removePending id) sent returned t) :
      Moves inner mayOpen now s sent returned t
  | refuse {s t : State} {sent : List (Nat × ScheduleOutcome)} {returned : List Nat} (id : Nat)
      (pending : Pending) (found : s.pending.lookup id = some pending) (outcome : ScheduleOutcome)
      (live : ∀ permit, outcome ≠ .dispatch permit)
      (rest : Moves inner mayOpen now (s.removePending id) sent returned t) :
      Moves inner mayOpen now s ((pending.sender, outcome) :: sent) returned t
  | grant {s t : State} {sent : List (Nat × ScheduleOutcome)} {returned : List Nat} (id : Nat)
      (pending : Pending) (found : s.pending.lookup id = some pending)
      (ready : pending.readyAt inner s now = true) (receiver : mayOpen pending.sender)
      (rest : Moves inner mayOpen now (s.grant inner id now pending) sent returned t) :
      Moves inner mayOpen now s ((pending.sender, .dispatch (pending.permit id now)) :: sent) returned t
  | undo {s t : State} {sent : List (Nat × ScheduleOutcome)} {returned : List Nat} (id : Nat)
      (pending : Pending) (found : s.pending.lookup id = some pending)
      (rest : Moves inner mayOpen now (((s.removePending id).reserve id now pending).retract id) sent
        returned t) :
      Moves inner mayOpen now s sent (id :: returned) t

variable {inner : Inner} {mayOpen : Nat → Prop} {now : Nat} {s t u : State}
variable {sent sent' : List (Nat × ScheduleOutcome)} {returned returned' : List Nat}

theorem Moves.trans (h : Moves inner mayOpen now s sent returned t)
    (h' : Moves inner mayOpen now t sent' returned' u) :
    Moves inner mayOpen now s (sent ++ sent') (returned ++ returned') u := by
  induction h with
  | stop => exact h'
  | calm settled _ ih => exact .calm settled (ih h')
  | discard id pending found _ ih => exact .discard id pending found (ih h')
  | refuse id pending found outcome live _ ih => exact .refuse id pending found outcome live (ih h')
  | grant id pending found ready receiver _ ih => exact .grant id pending found ready receiver (ih h')
  | undo id pending found _ ih => exact .undo id pending found (ih h')

theorem mem_of_lookup {id : Nat} {pending : Pending} (found : s.pending.lookup id = some pending) :
    id ∈ s.pending :=
  AList.lookup_isSome.mp (by rw [found]; rfl)

theorem removePending_eq (s : State) (id : Nat) : ∃ bytes,
    s.removePending id = { s with pending := s.pending.erase id, pendingBytes := bytes } := by
  unfold State.removePending
  split
  next h =>
    have hmem : id ∉ s.pending.entries.keys := AList.lookup_eq_none.mp h
    have herase : s.pending.erase id = s.pending := AList.ext (List.kerase_of_notMem_keys hmem)
    exact ⟨s.pendingBytes, by rw [herase]⟩
  · exact ⟨_, rfl⟩

@[simp] theorem removePending_pending (s : State) (id : Nat) :
    (s.removePending id).pending = s.pending.erase id := by
  obtain ⟨bytes, h⟩ := removePending_eq s id
  rw [h]

@[simp] theorem removePending_events (s : State) (id : Nat) : (s.removePending id).events = s.events := by
  obtain ⟨bytes, h⟩ := removePending_eq s id
  rw [h]

@[simp] theorem removePending_active (s : State) (id : Nat) : (s.removePending id).active = s.active := by
  obtain ⟨bytes, h⟩ := removePending_eq s id
  rw [h]

@[simp] theorem removePending_pacing (s : State) (id : Nat) : (s.removePending id).pacing = s.pacing := by
  obtain ⟨bytes, h⟩ := removePending_eq s id
  rw [h]

@[simp] theorem removePending_nextId (s : State) (id : Nat) : (s.removePending id).nextId = s.nextId := by
  obtain ⟨bytes, h⟩ := removePending_eq s id
  rw [h]

@[simp] theorem removePending_coalesceUntil (s : State) (id : Nat) :
    (s.removePending id).coalesceUntil = s.coalesceUntil := by
  obtain ⟨bytes, h⟩ := removePending_eq s id
  rw [h]

@[simp] theorem grant_pending (id : Nat) (pending : Pending) :
    (s.grant inner id now pending).pending = s.pending.erase id := by
  simp [State.grant, updatePacing, State.reserve]

@[simp] theorem grant_active (id : Nat) (pending : Pending) :
    (s.grant inner id now pending).active = s.active.insert id pending.activeRequest := by
  simp [State.grant, updatePacing, State.reserve]

@[simp] theorem grant_events (id : Nat) (pending : Pending) :
    (s.grant inner id now pending).events = s.events ++ [pending.event id now] := by
  simp [State.grant, updatePacing, State.reserve]

theorem quotaReadiness_congr (hevents : t.events = s.events) (hpacing : t.pacing = s.pacing)
    (request : ScheduleRequest) (inputTokens outputTokens now : Nat) (limits : List (QuotaLimit × Nat))
    (ready : Nat) :
    quotaReadiness t request inputTokens outputTokens now limits ready =
      quotaReadiness s request inputTokens outputTokens now limits ready := by
  induction limits generalizing ready with
  | nil => rfl
  | cons limit limits ih => simp only [quotaReadiness, pacedInstants, hevents, hpacing, ih]

theorem fit_congr (hevents : t.events = s.events) (hactive : t.active = s.active)
    (hpacing : t.pacing = s.pacing) (pending : Pending) (instant : Nat) :
    pending.fit inner t instant = pending.fit inner s instant := by
  unfold Pending.fit readiness concurrencyBlocked
  rw [quotaReadiness_congr hevents hpacing, hactive]

@[simp] theorem undo_pending (id : Nat) (pending : Pending) :
    (((s.removePending id).reserve id now pending).retract id).pending = s.pending.erase id := by
  simp [State.reserve, State.retract]

/-- A pass only takes entries out of the queue. -/
theorem Moves.sublist (h : Moves inner mayOpen now s sent returned t) :
    t.pending.entries.Sublist s.pending.entries := by
  induction h with
  | stop => exact .refl _
  | calm _ _ ih => exact ih
  | discard id pending found _ ih | refuse id pending found _ _ _ ih | grant id pending found _ _ _ ih
  | undo id pending found _ ih =>
    simp only [removePending_pending, grant_pending, undo_pending] at ih
    exact ih.trans (erase_entries_sublist id _)

/-- New events carry the reading of the pass. -/
theorem Moves.events (h : Moves inner mayOpen now s sent returned t) {event : UsageEvent}
    (hevent : event ∈ t.events) : event ∈ s.events ∨ event.atTime = now := by
  induction h with
  | stop => exact .inl hevent
  | calm _ _ ih => exact ih hevent
  | discard _ _ _ _ ih | refuse _ _ _ _ _ _ ih => simpa using ih hevent
  | grant id pending _ _ _ _ ih =>
    rcases ih hevent with h | h
    · rw [grant_events] at h
      rcases List.mem_append.mp h with h | h
      · exact .inl h
      · exact .inr (List.mem_singleton.mp h ▸ rfl)
    · exact .inr h
  | undo id pending _ _ ih =>
    rcases ih hevent with h | h
    · have h := (List.mem_filter.mp h).1
      simp only [State.reserve, removePending_events] at h
      rcases List.mem_append.mp h with h | h
      · exact .inl h
      · exact .inr (List.mem_singleton.mp h ▸ rfl)
    · exact .inr h

theorem Moves.nextId (h : Moves inner mayOpen now s sent returned t) : t.nextId = s.nextId := by
  induction h with
  | stop => rfl
  | calm _ _ ih => exact ih
  | discard _ _ _ _ ih | refuse _ _ _ _ _ _ ih => simpa using ih
  | grant id pending _ _ _ _ ih => simpa [State.grant, updatePacing, State.reserve] using ih
  | undo id pending _ _ ih => simpa [State.reserve, State.retract] using ih

theorem Moves.pending (h : Moves inner mayOpen now s sent returned t) {id : Nat} {pending : Pending}
    (found : t.pending.lookup id = some pending) : s.pending.lookup id = some pending :=
  lookup_of_sublist h.sublist found

end Kaiion.Scheduling
