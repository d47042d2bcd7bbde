import Kaiion.Scheduling.Changes
import Kaiion.Scheduling.RollingQuota

/-! A run beside the same run without one permit: whatever was done for that permit did not happen. -/
namespace Kaiion.Scheduling
open Foundation

variable {inner : Inner} {p : Nat} {now : Nat} {s : State}

structure Twin where
  ledger : Ledger
  without : State
  granted : List UsageEvent

/-- The changes that are not made for a permit. -/
def others (p : Nat) (changes : List Change) : List Change :=
  changes.filter (fun change => change.permit ≠ some p)

/-- The reservations a turn makes. -/
def Ledger.grants (inner : Inner) (ledger : Ledger) (turn : Turn) : List UsageEvent :=
  reservations turn.now (turn.work.run inner turn.closed turn.now ledger.state).sent

def Twin.next (inner : Inner) (p : Nat) (twin : Twin) (turn : Turn) : Twin :=
  { ledger := twin.ledger.next inner turn
    without := applied inner twin.without
      (others p (turn.work.changes inner turn.closed turn.now twin.ledger.state))
    granted := twin.granted ++ twin.ledger.grants inner turn }

/-- The critical sections of one scheduler, in lock order, without `p` and with it. -/
def twins (inner : Inner) (p : Nat) : Machine Twin Turn :=
  { initial := { ledger := (ledgers inner).initial, without := .initial, granted := [] }
    enabled := fun twin turn => twin.ledger.Ready inner turn
    next := Twin.next inner p }

instance (inner : Inner) (p : Nat) (twin : Twin) (turn : Turn) : Decidable ((twins inner p).enabled twin turn) :=
  inferInstanceAs (Decidable (twin.ledger.Ready inner turn))

theorem twins_ledger {allowed : Twin → Turn → Prop} {twin : Twin} (h : (twins inner p).Run allowed twin) :
    (ledgers inner).Run (fun _ _ => True) twin.ledger := by
  induction h with
  | initial => exact .initial
  | step turn _ enabled _ ih => exact .step turn ih enabled trivial

/-- Every id has been given out once, and those in the queue have not become permits. -/
structure Issued (granted : List UsageEvent) (s : State) : Prop where
  queued : ∀ id ∈ s.pending, id < s.nextId ∧ id ∉ granted.map UsageEvent.id
  below : ∀ event ∈ granted, event.id < s.nextId
  distinct : (granted.map UsageEvent.id).Nodup
  active : ∀ id ∈ s.active, id ∈ granted.map UsageEvent.id
  recorded : ∀ event ∈ s.events, event.id ∈ granted.map UsageEvent.id

variable {granted : List UsageEvent}

theorem Issued.initial : Issued [] .initial :=
  ⟨fun _ h => (nomatch h), fun _ h => (nomatch h), .nil, fun _ h => (nomatch h), fun _ h => (nomatch h)⟩

theorem Issued.fresh (h : Issued granted s) : s.Fresh := fun id hid =>
  ⟨fun hmem => (h.queued id hid).2 (h.active id hmem),
    fun event hevent heq => (h.queued id hid).2 (heq ▸ h.recorded event hevent)⟩

theorem Issued.opened (h : Issued granted s) (inner : Inner) (now : Nat) (work : Section) :
    Issued granted (work.opened inner now s) where
  queued id hid := by
    rw [work.opened_nextId]
    exact h.queued id (((work.opened_pending inner now s).map Sigma.fst).subset hid)
  below event hevent := by
    rw [work.opened_nextId]
    exact h.below event hevent
  distinct := h.distinct
  active id hid := by
    refine h.active id ?_
    rw [work.opened_active] at hid
    split at hid
    · exact hid
    · exact (AList.mem_erase.mp hid).2
  recorded event hevent := by
    obtain ⟨old, hold, heq, -⟩ := Section.edit_events (Section.opened_events hevent)
    exact heq ▸ h.recorded old hold

theorem applied_grants_events (s : State) (events : List UsageEvent) :
    (applied inner s (events.map .grant)).events = s.events ++ events := by
  induction events generalizing s with
  | nil => exact (List.append_nil _).symm
  | cons event events ih =>
    refine (ih _).trans ?_
    simp [Change.apply, updatePacing]

theorem mem_applied_grants_active {events : List UsageEvent} {id : Nat}
    (h : id ∈ (applied inner s (events.map .grant)).active) : id ∈ s.active ∨ id ∈ events.map UsageEvent.id := by
  induction events generalizing s with
  | nil => exact .inl h
  | cons event events ih =>
    rcases ih h with hid | hid
    · rcases (AList.mem_insert _).mp hid with rfl | hid
      · exact .inr List.mem_cons_self
      · exact .inl hid
    · exact .inr (List.mem_cons_of_mem _ hid)

private theorem Issued.reserved {t : State} {events : List UsageEvent} (h : Issued granted s)
    (hreserves : Reserves inner now s t events) (hnext : t.nextId = s.nextId)
    (hpending : t.pending.entries.Sublist s.pending.entries) : Issued (granted ++ events) t where
  queued id hid := by
    obtain ⟨hlt, hnew⟩ := h.queued id ((hpending.map Sigma.fst).subset hid)
    rw [List.map_append, List.mem_append, hnext]
    refine ⟨hlt, not_or.mpr ⟨hnew, fun hmem => ?_⟩⟩
    obtain ⟨event, hevent, rfl⟩ := List.mem_map.mp hmem
    exact hreserves.gone event hevent hid
  below event hevent := by
    rw [hnext]
    rcases List.mem_append.mp hevent with hevent | hevent
    · exact h.below event hevent
    · exact (h.queued event.id (hreserves.queued event hevent)).1
  distinct := by
    rw [List.map_append]
    refine List.nodup_append.mpr ⟨h.distinct, hreserves.distinct, fun id hold other hnew heq => ?_⟩
    obtain ⟨event, hevent, rfl⟩ := List.mem_map.mp hnew
    exact (h.queued event.id (hreserves.queued event hevent)).2 (heq ▸ hold)
  active id hid := by
    rw [hreserves.alike.active] at hid
    rw [List.map_append, List.mem_append]
    exact (mem_applied_grants_active hid).imp (h.active id) (fun hmem => hmem)
  recorded event hevent := by
    rw [hreserves.alike.events, applied_grants_events] at hevent
    rw [List.map_append, List.mem_append]
    rcases List.mem_append.mp hevent with hevent | hevent
    · exact .inl (h.recorded event hevent)
    · exact .inr (List.mem_map_of_mem hevent)

/-- A queued request takes the next id. -/
private theorem Issued.enqueue (h : Issued granted s) (sender : Nat) (request : ScheduleRequest)
    (hids : s.nextId + 1 < 2 ^ 64) : Issued granted (s.enqueue inner now sender request) := by
  unfold State.enqueue
  split
  · exact h
  · have hnext : (s.nextId + 1) % 2 ^ 64 = s.nextId + 1 := Nat.mod_eq_of_lt hids
    refine ⟨fun id hid => ?_, fun event hevent => ?_, h.distinct, h.active, h.recorded⟩
    · rw [hnext]
      rcases (AList.mem_insert _).mp hid with rfl | hid
      · refine ⟨Nat.lt_succ_self _, fun hmem => ?_⟩
        obtain ⟨event, hevent, heq⟩ := List.mem_map.mp hmem
        exact absurd (h.below event hevent) (by omega)
      · obtain ⟨hlt, hnew⟩ := h.queued id hid
        exact ⟨Nat.lt_succ_of_lt hlt, hnew⟩
    · rw [hnext]
      exact Nat.lt_succ_of_lt (h.below event hevent)

/-- The opened state of a section makes the reservations of the permits it sends. -/
theorem Ledger.Sound.reserves {ledger : Ledger} (hsound : ledger.Sound inner)
    (hissued : Issued granted ledger.state) (turn : Turn) :
    Reserves inner turn.now (turn.work.opened inner turn.now ledger.state) (ledger.next inner turn).state
      (ledger.grants inner turn) :=
  turn.work.reserves turn.closed (hissued.opened inner turn.now turn.work).fresh
    (hsound.opened_queued turn)

theorem Issued.next {ledger : Ledger} {turn : Turn} (hsound : ledger.Sound inner)
    (h : Issued granted ledger.state) (hids : turn.work.queues = true → ledger.state.nextId + 1 < 2 ^ 64) :
    Issued (granted ++ ledger.grants inner turn) (ledger.next inner turn).state := by
  have hopened := h.opened inner turn.now turn.work
  cases hwork : turn.work.queues with
  | true =>
    obtain ⟨elapsed, now, closed, work⟩ := turn
    cases work with
    | enqueue sender request =>
      have hnext := (Section.enqueue sender request).opened_nextId inner now ledger.state
      have henqueued : Issued granted (((Section.enqueue sender request).opened inner now ledger.state).enqueue inner
          now sender request) := hopened.enqueue sender request (hnext ▸ hids hwork)
      refine Eq.subst (motive := fun granted => Issued granted _) ?_ henqueued
      exact (List.append_nil _).symm
    | _ => cases hwork
  | false =>
    have hmoves := @Section.run_moves inner turn.closed (fun _ => True) (fun _ _ _ => trivial) turn.now
      ledger.state turn.work hwork
    exact hopened.reserved (hsound.reserves h turn) hmoves.nextId hmoves.sublist

/-- Another run of the same scheduler goes along, which makes the same changes but for those made for `p`. -/
def besides (inner : Inner) (p : Nat) : Machine (Twin × Ledger) (Turn × Turn) :=
  { initial := ((twins inner p).initial, (ledgers inner).initial)
    enabled := fun pair turns => pair.1.ledger.Ready inner turns.1 ∧ pair.2.Ready inner turns.2 ∧
      (turns.2.work.queues = true → pair.2.state.nextId + 1 < 2 ^ 64) ∧
      turns.2.work.changes inner turns.2.closed turns.2.now pair.2.state =
        others p (turns.1.work.changes inner turns.1.closed turns.1.now pair.1.ledger.state)
    next := fun pair turns => (pair.1.next inner p turns.1, pair.2.next inner turns.2) }

instance (inner : Inner) (p : Nat) (pair : Twin × Ledger) (turns : Turn × Turn) :
    Decidable ((besides inner p).enabled pair turns) := inferInstanceAs (Decidable (_ ∧ _ ∧ (_ → _) ∧ _ = _))

/-- The two runs differ only in what was done for `p`. -/
def Beside (inner : Inner) (p : Nat) (twin : Twin) (other : Ledger) : Prop :=
  (besides inner p).Run (fun _ _ => True) (twin, other)

/-- The other run reaches what the first calls its state without `p`. -/
theorem Beside.alike {twin : Twin} {other : Ledger} (h : Beside inner p twin other) :
    Alike other.state twin.without := by
  have hbooks := h.invariant (I := fun pair => pair.2.Sound inner ∧ (∃ granted, Issued granted pair.2.state) ∧
    Alike pair.2.state pair.1.without)
    ⟨Ledger.sound .initial, ⟨[], .initial⟩, .refl _⟩ fun pair turns ih enabled _ => ?_
  · exact hbooks.2.2
  · obtain ⟨hsound, ⟨granted, hissued⟩, halike⟩ := ih
    obtain ⟨-, hready, hids, hsame⟩ := enabled
    refine ⟨hsound.next hready, ⟨_, hissued.next hsound hids⟩, ?_⟩
    have hchanged := turns.2.work.run_alike turns.2.closed
      (hissued.opened inner turns.2.now turns.2.work).fresh (hsound.opened_queued turns.2)
    rw [hsame] at hchanged
    exact hchanged.trans (applied_alike halike _)

end Kaiion.Scheduling
