import Kaiion.Scheduling.Critical
import Kaiion.Scheduling.Tasks
import Mathlib.Data.List.Perm.Subperm

/-! What a section does with channels, permits and reservation ids, all at once. -/
namespace Kaiion.Scheduling
open Foundation

variable {inner : Inner} {mayOpen : Nat → Prop} {now : Nat} {s t : State}
variable {sent : List (Nat × ScheduleOutcome)} {returned : List Nat}

/-- The channels of the queued requests. -/
def State.senders (s : State) : List Nat := s.pending.entries.map (fun entry => entry.2.sender)

/-- The reservation ids of the permits that are sent. -/
def granted (sent : List (Nat × ScheduleOutcome)) : List Nat :=
  sent.flatMap (fun message => leaseIn (some message.2))

private theorem senders_perm {id : Nat} {pending : Pending} (found : s.pending.lookup id = some pending)
    (hleft : t.pending = s.pending.erase id) : s.senders.Perm (pending.sender :: t.senders) := by
  unfold State.senders
  rw [hleft]
  exact (entries_perm_of_lookup found).map _

private theorem keys_perm {id : Nat} {pending : Pending} (found : s.pending.lookup id = some pending) :
    s.pending.keys.Perm (id :: (s.pending.erase id).keys) :=
  (entries_perm_of_lookup found).map Sigma.fst

/-- Every queued channel is used at most once: by a message or by staying in the queue. -/
theorem Moves.senders (h : Moves inner mayOpen now s sent returned t) :
    (sent.map Prod.fst ++ t.senders).Subperm s.senders := by
  induction h with
  | stop => exact .refl _
  | calm _ _ ih => exact ih
  | discard id pending found _ ih =>
    exact (ih.cons_right pending.sender).trans (senders_perm found (removePending_pending _ id)).symm.subperm
  | refuse id pending found outcome _ _ ih =>
    exact ((List.subperm_cons _).mpr ih).trans (senders_perm found (removePending_pending _ id)).symm.subperm
  | grant id pending found _ _ _ ih =>
    exact ((List.subperm_cons _).mpr ih).trans (senders_perm found (grant_pending id pending)).symm.subperm
  | undo id pending found _ ih =>
    exact (ih.cons_right pending.sender).trans (senders_perm found (undo_pending id pending)).symm.subperm

/-- Every queued id is used at most once: for a permit, for one that came back, or in the queue. -/
theorem Moves.ids (h : Moves inner mayOpen now s sent returned t) :
    (granted sent ++ returned ++ t.pending.keys).Subperm s.pending.keys := by
  induction h with
  | stop => exact .refl _
  | calm _ _ ih => exact ih
  | discard id pending found _ ih =>
    rw [removePending_pending] at ih
    exact (ih.cons_right id).trans (keys_perm found).symm.subperm
  | refuse id pending found outcome live _ ih =>
    rw [removePending_pending] at ih
    have hnone : leaseIn (some outcome) = [] := by
      cases outcome with
      | dispatch permit => exact absurd rfl (live permit)
      | _ => rfl
    rw [granted, List.flatMap_cons, hnone]
    exact (ih.cons_right id).trans (keys_perm found).symm.subperm
  | grant id pending found _ _ _ ih =>
    rw [grant_pending] at ih
    exact ((List.subperm_cons id).mpr ih).trans (keys_perm found).symm.subperm
  | undo id pending found _ ih =>
    rw [undo_pending] at ih
    refine List.Subperm.trans ?_ (((List.subperm_cons id).mpr ih).trans (keys_perm found).symm.subperm)
    rw [List.append_assoc, List.append_assoc, List.cons_append]
    exact List.perm_middle.subperm

/-- A permit is sent for a queued request, into its channel, which may still be open. -/
theorem Moves.granted (h : Moves inner mayOpen now s sent returned t) {c : Nat} {permit : SchedulePermit}
    (hsent : (c, .dispatch permit) ∈ sent) :
    mayOpen c ∧ ∃ id pending, s.pending.lookup id = some pending ∧ pending.sender = c ∧
      permit = pending.permit id now := by
  induction h with
  | stop => exact nomatch hsent
  | calm _ _ ih => exact ih hsent
  | discard id pending found _ ih =>
    obtain ⟨hopen, id', pending', found', hrest⟩ := ih hsent
    rw [removePending_pending] at found'
    exact ⟨hopen, id', pending', lookup_of_sublist (erase_entries_sublist _ _) found', hrest⟩
  | refuse id pending found outcome live _ ih =>
    rcases List.mem_cons.mp hsent with heq | hsent
    · exact absurd (Prod.mk.inj heq).2.symm (live permit)
    · obtain ⟨hopen, id', pending', found', hrest⟩ := ih hsent
      rw [removePending_pending] at found'
      exact ⟨hopen, id', pending', lookup_of_sublist (erase_entries_sublist _ _) found', hrest⟩
  | grant id pending found _ receiver _ ih =>
    rcases List.mem_cons.mp hsent with heq | hsent
    · cases heq
      exact ⟨receiver, id, pending, found, rfl, rfl⟩
    · obtain ⟨hopen, id', pending', found', hrest⟩ := ih hsent
      rw [grant_pending] at found'
      exact ⟨hopen, id', pending', lookup_of_sublist (erase_entries_sublist _ _) found', hrest⟩
  | undo id pending found _ ih =>
    obtain ⟨hopen, id', pending', found', hrest⟩ := ih hsent
    rw [undo_pending] at found'
    exact ⟨hopen, id', pending', lookup_of_sublist (erase_entries_sublist _ _) found', hrest⟩

@[simp] theorem leaseIn_none : leaseIn none = [] := rfl

@[simp] theorem leaseIn_permit (id : Nat) (pending : Pending) :
    leaseIn (some (.dispatch (pending.permit id now))) = [id] := rfl

@[simp] theorem granted_nil : granted [] = [] := rfl

@[simp] theorem granted_cons (c : Nat) (outcome : ScheduleOutcome) (sent : List (Nat × ScheduleOutcome)) :
    granted ((c, outcome) :: sent) = leaseIn (some outcome) ++ granted sent := rfl

@[simp] theorem undo_active (id : Nat) (pending : Pending) :
    (((s.removePending id).reserve id now pending).retract id).active =
      (s.active.insert id pending.activeRequest).erase id := by
  simp [State.reserve, State.retract]

/-- An id becomes active only with a permit for it. -/
theorem Moves.active (h : Moves inner mayOpen now s sent returned t) {id : Nat} (hid : id ∈ t.active) :
    id ∈ s.active ∨ id ∈ Scheduling.granted sent := by
  induction h with
  | stop => exact .inl hid
  | calm _ _ ih => exact ih hid
  | discard id' pending found _ ih => simpa using ih hid
  | refuse id' pending found outcome _ _ ih =>
    rcases ih hid with h | h
    · exact .inl (by simpa using h)
    · exact .inr (List.mem_append_right _ h)
  | grant id' pending found _ _ _ ih =>
    rcases ih hid with h | h
    · rw [grant_active, AList.mem_insert] at h
      rcases h with rfl | h
      · exact .inr (by simp)
      · exact .inl h
    · exact .inr (List.mem_append_right _ h)
  | undo id' pending found _ ih =>
    rcases ih hid with h | h
    · rw [undo_active, AList.mem_erase, AList.mem_insert] at h
      exact .inl (h.2.resolve_left h.1)
    · exact .inr h

/-- An event is recorded only with a permit for it. -/
theorem Moves.recorded (h : Moves inner mayOpen now s sent returned t) {event : UsageEvent}
    (hevent : event ∈ t.events) : event ∈ s.events ∨ event.id ∈ Scheduling.granted sent := by
  induction h with
  | stop => exact .inl hevent
  | calm _ _ ih => exact ih hevent
  | discard id pending found _ ih => simpa using ih hevent
  | refuse id pending found outcome _ _ ih =>
    rcases ih hevent with h | h
    · exact .inl (by simpa using h)
    · exact .inr (List.mem_append_right _ h)
  | grant id pending found _ _ _ ih =>
    rcases ih hevent with h | h
    · rw [grant_events] at h
      rcases List.mem_append.mp h with h | h
      · exact .inl h
      · cases List.mem_singleton.mp h
        exact .inr (by simp [Pending.event])
    · exact .inr (List.mem_append_right _ h)
  | undo id pending found _ ih =>
    rcases ih hevent with h | h
    · obtain ⟨h, hne⟩ := List.mem_filter.mp h
      simp only [State.reserve, removePending_events] at h
      rcases List.mem_append.mp h with h | h
      · exact .inl h
      · cases List.mem_singleton.mp h
        simp [Pending.event] at hne
    · exact .inr h

/-- What is not queued stays active. -/
theorem Moves.keeps_active (h : Moves inner mayOpen now s sent returned t) {id : Nat}
    (hqueue : id ∉ s.pending) (hid : id ∈ s.active) : id ∈ t.active := by
  induction h with
  | stop => exact hid
  | calm _ _ ih => exact ih hqueue hid
  | discard id' pending found _ ih | refuse id' pending found _ _ _ ih =>
    exact ih (by simp [hqueue]) (by simpa using hid)
  | grant id' pending found _ _ _ ih => exact ih (by simp [hqueue]) (by simp [hid])
  | undo id' pending found _ ih =>
    have hne : id ≠ id' := fun heq => hqueue (heq ▸ mem_of_lookup found)
    exact ih (by simp [hqueue]) (by simp [hid, hne])

/-- What a permit was sent for is active. -/
theorem Moves.grants_active (h : Moves inner mayOpen now s sent returned t) {id : Nat}
    (hid : id ∈ Scheduling.granted sent) : id ∈ t.active := by
  induction h with
  | stop => exact nomatch hid
  | calm _ _ ih | discard _ _ _ _ ih | undo _ _ _ _ ih => exact ih hid
  | refuse id' pending found outcome live _ ih =>
    rw [granted_cons] at hid
    rcases List.mem_append.mp hid with hid | hid
    · cases outcome with
      | dispatch permit => exact absurd rfl (live permit)
      | _ => exact nomatch hid
    · exact ih hid
  | grant id' pending found _ _ rest ih =>
    rw [granted_cons, leaseIn_permit] at hid
    rcases List.mem_append.mp hid with hid | hid
    · cases List.mem_singleton.mp hid
      exact rest.keeps_active (by simp) (by simp)
    · exact ih hid

theorem Sys.queue_full {sys : Sys} {request : ScheduleRequest} (started : Nat)
    (h : queueFull inner request (pruneEvents inner.policy sys.clock sys.state) = true) :
    sys.queue inner request started = { sys with state := pruneEvents inner.policy sys.clock sys.state } := by
  have hstate : (pruneEvents inner.policy sys.clock sys.state).enqueue inner sys.clock sys.issued request =
      pruneEvents inner.policy sys.clock sys.state := if_pos h
  have hqueue : sys.queue inner request started =
      sys.enter inner (fun _ _ _ => true) sys.clock (.enqueue sys.issued request) := if_pos h
  have henter : sys.enter inner (fun _ _ _ => true) sys.clock (.enqueue sys.issued request) = { sys with
      state := (pruneEvents inner.policy sys.clock sys.state).enqueue inner sys.clock sys.issued request } := rfl
  rw [hqueue, henter, hstate]

theorem Sys.queue_room {sys : Sys} {request : ScheduleRequest} (started : Nat)
    (h : queueFull inner request (pruneEvents inner.policy sys.clock sys.state) = false) :
    sys.queue inner request started = { sys.update sys.issued
        { request, id := sys.state.nextId, started, channel := none, phase := .top } with
      state := (pruneEvents inner.policy sys.clock sys.state).enqueue inner sys.clock sys.issued request
      issued := sys.issued + 1 } :=
  if_neg (Bool.eq_false_iff.mp h)

theorem enqueue_room {now sender : Nat} {request : ScheduleRequest} (h : queueFull inner request s = false) :
    s.enqueue inner now sender request = { s with
      nextId := (s.nextId + 1) % 2 ^ 64
      coalesceUntil := if s.pending.entries = [] then some (now + fromMillis inner.policy.queueCoalesceMs)
        else s.coalesceUntil
      pendingBytes := s.pendingBytes + requestBytes inner request
      pending := s.pending.insert s.nextId
        { request, enqueuedAt := now, inputTokens := request.inputTokens
          outputTokens := request.outputTokens, bytes := requestBytes inner request, sender } } :=
  if_neg (Bool.eq_false_iff.mp h)

theorem Settlement.work_queues (settlement : Settlement) : settlement.work.queues = false := by
  cases settlement <;> rfl

/-- A step leaves the state alone, runs a section that only moves, or queues a request. -/
theorem Sys.next_state (inner : Inner) (sys : Sys) (action : Action) :
    (sys.next inner action).state = sys.state ∨
    (∃ closed now work, Section.queues work = false ∧
      (sys.next inner action).state = (work.run inner (sys.closings closed) now sys.state).state) ∨
    ∃ request started, action = .enqueue request started := by
  cases action with
  | enqueue request started => exact .inr (.inr ⟨request, started, rfl⟩)
  | pass c now closed => exact .inr (.inl ⟨closed, now, .pass (sys.calls c).id (sys.calls c).request, rfl, rfl⟩)
  | expire c => exact .inr (.inl ⟨fun _ _ _ => true, sys.clock, .expire (sys.calls c).id, rfl, rfl⟩)
  | finish settlement closed =>
    exact .inr (.inl ⟨closed, settlement.reading sys.clock, settlement.work, settlement.work_queues, rfl⟩)
  | cleanLease id closed => exact .inr (.inl ⟨closed, sys.clock, .dropLease id, rfl, rfl⟩)
  | cleanPending id closed => exact .inr (.inl ⟨closed, sys.clock, .dropPending id, rfl, rfl⟩)
  | receive c outcome => cases outcome <;> exact .inl rfl
  | _ => exact .inl rfl

end Kaiion.Scheduling
