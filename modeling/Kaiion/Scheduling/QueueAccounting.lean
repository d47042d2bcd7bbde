import Kaiion.Scheduling.Slots
import Kaiion.Json.Print

/-! The waiting queue keeps its books: its bytes are those of its entries, it stays within its bounds,
and what leaves it leaves it once. -/
namespace Kaiion.Scheduling
open Foundation

variable {inner : Inner} {mayOpen : Nat → Prop} {now : Nat} {s t : State}
variable {sent : List (Nat × ScheduleOutcome)} {returned : List Nat}

/-- The bytes of the queued requests. -/
def State.queuedBytes (s : State) : Nat := (s.pending.entries.map (fun entry => entry.2.bytes)).sum

/-- The queue within its bounds, every entry charged with its size. -/
structure State.Accounted (inner : Inner) (s : State) : Prop where
  charged : ∀ id pending, s.pending.lookup id = some pending → pending.bytes = requestBytes inner pending.request
  bytes : s.pendingBytes = s.queuedBytes
  bytesBound : s.pendingBytes ≤ inner.policy.maxPendingBytes
  bound : s.pending.entries.length ≤ inner.policy.maxPending

private theorem queuedBytes_of_lookup {id : Nat} {pending : Pending} (found : s.pending.lookup id = some pending)
    (hleft : t.pending = s.pending.erase id) : s.queuedBytes = pending.bytes + t.queuedBytes := by
  have hperm := (entries_perm_of_lookup found).map (fun entry : (_ : Nat) × Pending => entry.2.bytes)
  unfold State.queuedBytes
  rw [hperm.sum_nat, List.map_cons, List.sum_cons, hleft]

theorem State.Accounted.congr (h : s.Accounted inner) (hpending : t.pending = s.pending)
    (hbytes : t.pendingBytes = s.pendingBytes) : t.Accounted inner := by
  refine ⟨fun id pending found => ?_, ?_, ?_, ?_⟩
  · exact h.charged id pending (hpending ▸ found)
  · rw [hbytes, h.bytes]
    unfold State.queuedBytes
    rw [hpending]
  · rw [hbytes]
    exact h.bytesBound
  · rw [hpending]
    exact h.bound

/-- An entry takes exactly its own bytes along; the subtraction does not saturate. -/
private theorem State.Accounted.leave (h : s.Accounted inner) {id : Nat} {pending : Pending}
    (found : s.pending.lookup id = some pending) (hpending : t.pending = s.pending.erase id)
    (hbytes : t.pendingBytes = s.pendingBytes - pending.bytes) : t.Accounted inner := by
  have hsum := queuedBytes_of_lookup found hpending
  have hold := h.bytes
  have hbound := h.bytesBound
  have hsub : t.pending.entries.Sublist s.pending.entries := by
    rw [hpending]
    exact erase_entries_sublist id _
  refine ⟨fun other entry hentry => ?_, by omega, by omega, ?_⟩
  · exact h.charged other entry (lookup_of_sublist hsub hentry)
  · exact Nat.le_trans hsub.length_le h.bound

theorem State.Accounted.removePending (h : s.Accounted inner) (id : Nat) : (s.removePending id).Accounted inner := by
  cases found : s.pending.lookup id with
  | none =>
    have hsame : s.removePending id = s := by simp [State.removePending, found]
    rw [hsame]
    exact h
  | some pending => exact h.leave found (removePending_pending s id) (by simp [State.removePending, found])

/-- Moves keep the books. -/
theorem Moves.accounted (hmoves : Moves inner mayOpen now s sent returned t) (h : s.Accounted inner) :
    t.Accounted inner := by
  induction hmoves with
  | stop => exact h
  | calm _ _ ih => exact ih (h.congr rfl rfl)
  | discard id _ _ _ ih | refuse id _ _ _ _ _ ih => exact ih (h.removePending id)
  | grant id pending _ _ _ _ ih => exact ih ((h.removePending id).congr rfl rfl)
  | undo id pending _ _ ih => exact ih ((h.removePending id).congr rfl rfl)

private theorem Section.opened_accounted (h : s.Accounted inner) (work : Section) :
    (work.opened inner now s).Accounted inner := by
  have edited : (work.edit inner now s).Accounted inner := by
    cases work with
    | enqueue | pass | dropLease => exact h.congr rfl rfl
    | expire id | dropPending id => exact (withdraw_moves inner (fun _ => True) now id s).accounted h
    | complete permit inputTokens outputTokens cacheReadHit =>
      obtain ⟨sessions, heq⟩ := settle_eq now permit inputTokens outputTokens cacheReadHit s
      rw [Section.edit, heq]
      exact h.congr rfl rfl
    | abort id =>
      obtain ⟨pacing, heq⟩ := revoke_eq inner id s
      rw [Section.edit, heq]
      exact h.congr rfl rfl
  unfold Section.opened
  split
  · exact edited.congr rfl rfl
  · exact edited

/-- Queueing charges the new entry, if its id is free. -/
private theorem State.Accounted.enqueue (h : s.Accounted inner) {request : ScheduleRequest} {sender : Nat}
    (hfresh : s.nextId ∉ s.pending) : (s.enqueue inner now sender request).Accounted inner := by
  cases hfull : queueFull inner request s with
  | true =>
    have hsame : s.enqueue inner now sender request = s := if_pos hfull
    rw [hsame]
    exact h
  | false =>
    unfold queueFull at hfull
    rw [Bool.or_eq_false_iff, decide_eq_false_iff_not, decide_eq_false_iff_not] at hfull
    obtain ⟨hlength, hbytes⟩ := hfull
    have hroom : queueFull inner request s = false := by simp [queueFull, hlength, hbytes]
    have hold := h.bytes
    have hbound := h.bytesBound
    rw [enqueue_room hroom]
    refine ⟨fun id pending found => ?_, ?_, ?_, ?_⟩
    · dsimp only at found
      by_cases hid : id = s.nextId
      · rw [hid, AList.lookup_insert] at found
        cases found
        rfl
      · rw [AList.lookup_insert_ne hid] at found
        exact h.charged id pending found
    · unfold State.queuedBytes at hold ⊢
      dsimp only
      rw [AList.entries_insert_of_notMem hfresh, List.map_cons, List.sum_cons, hold]
      exact Nat.add_comm _ _
    · dsimp only
      omega
    · dsimp only
      rw [AList.entries_insert_of_notMem hfresh, List.length_cons]
      omega

private theorem Sys.Owned.unqueued {sys : Sys} (h : sys.Owned) : sys.state.nextId ∉ sys.state.pending := by
  intro hmem
  obtain ⟨pending, found⟩ := Option.isSome_iff_exists.mp (AList.lookup_isSome.mpr hmem)
  have hlt := (h.queued _ pending found).2
  rw [h.numbered] at hlt
  exact Nat.lt_irrefl _ hlt

/-- Every step keeps the books while ids last. -/
theorem State.Accounted.next {sys : Sys} (h : sys.state.Accounted inner) (howned : sys.Owned) (action : Action) :
    (sys.next inner action).state.Accounted inner := by
  rcases sys.next_state inner action with hsame | ⟨closed, now, work, hwork, hstate⟩ | ⟨request, started, rfl⟩
  · rw [hsame]
    exact h
  · have hmoves := @Section.run_moves inner (sys.closings closed) (fun _ => True) (fun _ _ _ => trivial)
      now sys.state work hwork
    rw [hstate]
    exact hmoves.accounted (Section.opened_accounted h work)
  · have hpruned : (pruneEvents inner.policy sys.clock sys.state).Accounted inner := h.congr rfl rfl
    change (sys.queue inner (prepare inner request) started).state.Accounted inner
    cases hfull : queueFull inner (prepare inner request) (pruneEvents inner.policy sys.clock sys.state) with
    | true =>
      rw [Sys.queue_full started hfull]
      exact hpruned
    | false =>
      rw [Sys.queue_room started hfull]
      exact hpruned.enqueue howned.unqueued

/-- The messages of a section. -/
def Sys.sentBy (inner : Inner) (closed : Nat → Closings) (now : Nat) (work : Section) (sys : Sys) :
    List (Nat × ScheduleOutcome) :=
  (work.run inner (sys.closings closed) now sys.state).sent

/-- The messages of a step. -/
def Sys.sends (inner : Inner) (sys : Sys) : Action → List (Nat × ScheduleOutcome)
  | .pass c now closed => sys.sentBy inner closed now (.pass (sys.calls c).id (sys.calls c).request)
  | .finish settlement closed => sys.sentBy inner closed (settlement.reading sys.clock) settlement.work
  | .cleanLease id closed => sys.sentBy inner closed sys.clock (.dropLease id)
  | .cleanPending id closed => sys.sentBy inner closed sys.clock (.dropPending id)
  | _ => []

/-- A step sends nothing, or sends what a section that only moves sends. -/
private theorem Sys.sends_cases (inner : Inner) (sys : Sys) (action : Action) :
    sys.sends inner action = [] ∧
      ((sys.next inner action).state.pending.entries.Sublist sys.state.pending.entries ∨
        ∃ request started, action = .enqueue request started) ∨
    ∃ closed now work, Section.queues work = false ∧ sys.sends inner action = sys.sentBy inner closed now work ∧
      (sys.next inner action).state = (work.run inner (sys.closings closed) now sys.state).state ∧
      ∀ c, ((sys.next inner action).calls c).channel =
        (deliver (sys.sentBy inner closed now work) sys.calls c).channel := by
  cases action with
  | enqueue request started => exact .inl ⟨rfl, .inr ⟨request, started, rfl⟩⟩
  | pass c now closed =>
    refine .inr ⟨closed, now, .pass (sys.calls c).id (sys.calls c).request, rfl, rfl, rfl, fun other => ?_⟩
    change (if other = c then _ else _ : Call).channel = _
    split
    next heq => exact heq ▸ rfl
    · rfl
  | expire c =>
    refine .inl ⟨rfl, .inl ?_⟩
    exact (Section.expire (sys.calls c).id).opened_pending inner sys.clock sys.state
  | finish settlement closed =>
    exact .inr ⟨closed, settlement.reading sys.clock, settlement.work, settlement.work_queues, rfl, rfl, fun _ => rfl⟩
  | cleanLease id closed => exact .inr ⟨closed, sys.clock, .dropLease id, rfl, rfl, rfl, fun _ => rfl⟩
  | cleanPending id closed => exact .inr ⟨closed, sys.clock, .dropPending id, rfl, rfl, rfl, fun _ => rfl⟩
  | receive c outcome => cases outcome <;> exact .inl ⟨rfl, .inl (.refl _)⟩
  | _ => exact .inl ⟨rfl, .inl (.refl _)⟩

/-- What was sent so far: to every id at most one outcome, to none that waits, and only its own permit. -/
structure Sys.Told (sys : Sys) (log : List (Nat × ScheduleOutcome)) : Prop where
  once : (log.map Prod.fst).Nodup
  spent : ∀ id ∈ log.map Prod.fst, id < sys.issued ∧ id ∉ sys.state.pending
  permits : ∀ id permit, (id, .dispatch permit) ∈ log → permit.reservationId = some id

/-- An id waits in its own channel. -/
private theorem Sys.Owned.mem_senders {sys : Sys} (h : sys.Owned) (id : Nat) :
    id ∈ sys.state.senders ↔ id ∈ sys.state.pending := by
  unfold State.senders
  rw [List.mem_map]
  constructor
  · rintro ⟨entry, hentry, rfl⟩
    have found : sys.state.pending.lookup entry.1 = some entry.2 := AList.mem_lookup_iff.mpr hentry
    rw [(h.queued _ _ found).1]
    exact mem_of_lookup found
  · intro hmem
    obtain ⟨pending, found⟩ := Option.isSome_iff_exists.mp (AList.lookup_isSome.mpr hmem)
    exact ⟨⟨id, pending⟩, AList.mem_lookup_iff.mp found, (h.queued _ _ found).1⟩

private theorem Sys.Told.silent {sys next : Sys} {log : List (Nat × ScheduleOutcome)} (h : sys.Told log)
    (hissued : sys.issued ≤ next.issued)
    (hqueue : ∀ id ∈ next.state.pending, id ∈ sys.state.pending ∨ sys.issued ≤ id) : next.Told log := by
  refine ⟨h.once, fun id hid => ?_, h.permits⟩
  obtain ⟨hlt, hnot⟩ := h.spent id hid
  refine ⟨Nat.lt_of_lt_of_le hlt hissued, fun hmem => ?_⟩
  rcases hqueue id hmem with hmem | hle
  · exact hnot hmem
  · exact Nat.not_lt.mpr hle hlt

private theorem Sys.Owned.enqueued {sys : Sys} (h : sys.Owned) (request : ScheduleRequest) (started : Nat) :
    ∀ id ∈ (sys.queue inner request started).state.pending, id ∈ sys.state.pending ∨ sys.issued ≤ id := by
  intro id hid
  cases hfull : queueFull inner request (pruneEvents inner.policy sys.clock sys.state) with
  | true =>
    rw [Sys.queue_full started hfull] at hid
    exact .inl hid
  | false =>
    rw [Sys.queue_room started hfull, enqueue_room hfull] at hid
    rcases AList.mem_insert _ |>.mp hid with rfl | hid
    · exact .inr (Nat.le_of_eq h.numbered.symm)
    · exact .inl hid

/-- Every step sends only to ids that waited, and takes them out of the queue. -/
theorem Sys.Told.next {sys : Sys} {log : List (Nat × ScheduleOutcome)} (h : sys.Told log) (howned : sys.Owned)
    (hwired : sys.Wired) {action : Action} (hnext : (sys.next inner action).Owned) :
    (sys.next inner action).Told (log ++ sys.sends inner action) := by
  have hissued := sys.issued_le inner action
  rcases sys.sends_cases inner action with ⟨hnone, hqueue⟩ | ⟨closed, now, work, hwork, hsends, hstate, -⟩
  · rw [hnone, List.append_nil]
    refine h.silent hissued ?_
    rcases hqueue with hsub | ⟨request, started, rfl⟩
    · exact fun id hid => .inl (AList.mem_keys.mpr ((hsub.map Sigma.fst).subset (AList.mem_keys.mp hid)))
    · exact howned.enqueued (prepare inner request) started
  · have hmoves := @Section.run_moves inner (sys.closings closed) (fun _ => True) (fun _ _ _ => trivial)
      now sys.state work hwork
    obtain ⟨hnodup, hused⟩ := hwired.used (work.opened_pending inner now sys.state) hmoves
    obtain ⟨hsent, -, hapart⟩ := List.nodup_append.mp hnodup
    rw [hsends]
    refine ⟨?_, fun id hid => ?_, fun id permit hid => ?_⟩
    · -- A message goes to an id that waits, so to none that was sent one before.
      rw [List.map_append]
      refine List.nodup_append.mpr ⟨h.once, hsent, fun id hid other hother heq => ?_⟩
      have hwaits := (howned.mem_senders other).mp (hused other (List.mem_append_left _ hother))
      exact (h.spent id hid).2 (heq ▸ hwaits)
    · rw [List.map_append] at hid
      rcases List.mem_append.mp hid with hid | hid
      · obtain ⟨hlt, hnot⟩ := h.spent id hid
        refine ⟨Nat.lt_of_lt_of_le hlt hissued, fun hmem => hnot ?_⟩
        rw [← howned.mem_senders]
        rw [← hnext.mem_senders, hstate] at hmem
        exact hused id (List.mem_append_right _ hmem)
      · have hwaits := hused id (List.mem_append_left _ hid)
        refine ⟨Nat.lt_of_lt_of_le (hwired.waiting id hwaits).1 hissued, fun hmem => ?_⟩
        rw [← hnext.mem_senders, hstate] at hmem
        exact hapart id hid id hmem rfl
    · rcases List.mem_append.mp hid with hid | hid
      · exact h.permits id permit hid
      · obtain ⟨-, queued, pending, found, hsender, rfl⟩ := hmoves.granted hid
        have found := lookup_of_sublist (work.opened_pending inner now sys.state) found
        rw [← hsender, (howned.queued _ _ found).1]
        rfl

/-- Every id gets its permit once. -/
private theorem granted_sublist {log : List (Nat × ScheduleOutcome)}
    (h : ∀ id permit, (id, .dispatch permit) ∈ log → permit.reservationId = some id) :
    (granted log).Sublist (log.map Prod.fst) := by
  induction log with
  | nil => exact .slnil
  | cons message log ih =>
    obtain ⟨id, outcome⟩ := message
    have hrest := ih fun other permit hmem => h other permit (List.mem_cons_of_mem _ hmem)
    rw [granted_cons, List.map_cons]
    cases outcome with
    | dispatch permit =>
      have hid := h id permit List.mem_cons_self
      simpa [leaseIn, leaseOf, hid] using hrest
    | _ => exact hrest.cons id

/-- In every run with fewer than 2^64 acquires the queue's bytes are the sum of its entries' sizes and
stay within their bound, as does its length; no id waits and is active at once; and every id is sent at
most one outcome and dispatched at most once. -/
theorem queue_accounted {sys : Sys} {log : List (Nat × ScheduleOutcome)}
    (hrun : ((scheduler inner).recording (Sys.sends inner)).Run (fun _ _ => True) (sys, log))
    (hacquires : sys.issued < 2 ^ 64) :
    sys.state.pendingBytes = (sys.state.pending.entries.map (fun entry => entry.2.bytes)).sum ∧
    (∀ id pending, sys.state.pending.lookup id = some pending → pending.sender = id ∧
      pending.bytes = requestBytes inner pending.request) ∧
    sys.state.pendingBytes ≤ inner.policy.maxPendingBytes ∧
    sys.state.pending.entries.length ≤ inner.policy.maxPending ∧
    (∀ id ∈ sys.state.pending, id ∉ sys.state.active) ∧
    (log.map Prod.fst).Nodup ∧ (granted log).Nodup := by
  have haccounts : sys.Owned ∧ sys.state.Accounted inner ∧ sys.Told log := by
    generalize hrecord : (sys, log) = record at hrun
    induction hrun generalizing sys log with
    | initial =>
      cases hrecord
      refine ⟨Sys.owned_initial, ⟨fun _ _ found => (by cases found), rfl, Nat.zero_le _, Nat.zero_le _⟩, ?_⟩
      exact ⟨List.nodup_nil, fun _ hmem => absurd hmem List.not_mem_nil, fun _ _ hmem => absurd hmem List.not_mem_nil⟩
    | step action run henabled _ ih =>
      cases hrecord
      have hbefore := Nat.lt_of_le_of_lt (Sys.issued_le inner _ action) hacquires
      obtain ⟨howned, haccounted, htold⟩ := ih hbefore rfl
      have hnext := howned.next henabled hacquires
      have hplain : (scheduler inner).Run (fun _ _ => True) _ := Machine.Run.unrecorded run
      exact ⟨hnext, haccounted.next howned action, htold.next howned (Sys.wired hplain) hnext⟩
  obtain ⟨howned, haccounted, htold⟩ := haccounts
  exact ⟨haccounted.bytes, fun id pending found => ⟨(howned.queued id pending found).1, haccounted.charged id pending found⟩,
    haccounted.bytesBound, haccounted.bound, fun id hid => (howned.unused id (.inl hid)).active, htold.once,
    (granted_sublist htold.permits).nodup htold.once⟩

section Witness

private def sized : Inner :=
  { Inner.plain { enabled := true, limits := [{ maxConcurrency := some 1 }], queueCoalesceMs := 0 } with
    print := Json.print Json.pointed }

private def bodied : ScheduleRequest := { ScheduleRequest.plain "openai" "key" "gpt" with body := some .null }

private def queueing : List Action := [.enqueue bodied 0, .enqueue bodied 0, .read 1, .pass 1 0 undisturbed]

private def recorded : Sys × List (Nat × ScheduleOutcome) :=
  ((scheduler sized).recording (Sys.sends sized)).replay (.initial, []) queueing

/-- One of two requests was sent, the other still waits with its four bytes. -/
theorem queue_accounted_two : recorded.1.state.pendingBytes = 4 ∧
    recorded.1.state.pendingBytes = (recorded.1.state.pending.entries.map (fun entry => entry.2.bytes)).sum ∧
    recorded.1.state.pending.entries.length ≤ sized.policy.maxPending ∧ (granted recorded.2).Nodup :=
  have hrun : ((scheduler sized).recording (Sys.sends sized)).Run (fun _ _ => True) (recorded.1, recorded.2) :=
    .replay .initial (by decide)
  have h := queue_accounted hrun (by decide)
  ⟨by decide, h.1, h.2.2.2.1, h.2.2.2.2.2.2⟩

example : granted recorded.2 = [0] ∧ recorded.1.state.pending.keys = [1] := by decide

end Witness
end Kaiion.Scheduling
