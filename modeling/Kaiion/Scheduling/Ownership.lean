import Kaiion.Scheduling.Handoff

/-! Who owns a reservation. As long as ids are not reused, every active id has at most one owner:
a held permit, a channel, a settlement in progress or a clean-up. -/
namespace Kaiion.Scheduling
open Foundation

variable {inner : Inner} {sys : Sys}

/-- A permit that was handed out and is neither settled nor dropped. -/
def Sys.Holds (sys : Sys) (permit : SchedulePermit) : Prop :=
  permit ∈ sys.held ∨ (∃ c, (sys.calls c).channel = some (.dispatch permit)) ∨
    ∃ settlement ∈ sys.settling, settlement.permit = permit

/-- How many owners a reservation has. -/
def Sys.owners (sys : Sys) (id : Nat) : Nat :=
  (sys.held.flatMap leaseOf).count id +
    (sys.settling.flatMap (fun settlement => leaseOf settlement.permit)).count id +
    (leaseIn (sys.calls id).channel).count id + sys.leaseCleanups.count id

/-- Nothing knows the id yet. -/
structure Sys.Unused (sys : Sys) (id : Nat) : Prop where
  owners : sys.owners id = 0
  active : id ∉ sys.state.active
  events : ∀ event ∈ sys.state.events, event.id ≠ id

structure Sys.Owned (sys : Sys) : Prop where
  numbered : sys.state.nextId = sys.issued
  queued : ∀ id pending, sys.state.pending.lookup id = some pending → pending.sender = id ∧ id < sys.issued
  channels : ∀ c permit, (sys.calls c).channel = some (.dispatch permit) → permit.reservationId = some c
  once : ∀ id, sys.owners id ≤ 1
  unused : ∀ id, id ∈ sys.state.pending ∨ sys.issued ≤ id → sys.Unused id
  backed : ∀ permit id, sys.Holds permit → permit.reservationId = some id → id ∈ sys.state.active
  aborts : ∀ permit id, .abort permit id ∈ sys.settling → permit.reservationId = some id

@[simp] theorem mem_leaseOf {permit : SchedulePermit} {id : Nat} :
    id ∈ leaseOf permit ↔ permit.reservationId = some id := by
  simp [leaseOf]

theorem count_flatMap_erase {α : Type} [DecidableEq α] {items : List α} {item : α} (h : item ∈ items)
    (f : α → List Nat) (id : Nat) :
    (items.flatMap f).count id = (f item).count id + ((items.erase item).flatMap f).count id := by
  rw [((List.perm_cons_erase h).flatMap_right f).count_eq, List.flatMap_cons, List.count_append]

/-- A held permit owns its reservation. -/
theorem Sys.Owned.owner_of_holds (h : sys.Owned) {permit : SchedulePermit} {id : Nat}
    (hholds : sys.Holds permit) (hid : permit.reservationId = some id) : 0 < sys.owners id := by
  have hmem : id ∈ leaseOf permit := mem_leaseOf.mpr hid
  unfold Sys.owners
  rcases hholds with hheld | ⟨c, hchannel⟩ | ⟨settlement, hsettling, rfl⟩
  · have hpos := List.count_pos_iff.mpr (List.mem_flatMap.mpr ⟨permit, hheld, hmem⟩)
    omega
  · cases (h.channels c permit hchannel).symm.trans hid
    have hpos : 0 < (leaseIn (sys.calls id).channel).count id := by
      rw [hchannel]
      exact List.count_pos_iff.mpr hmem
    omega
  · have hpos := List.count_pos_iff.mpr (List.mem_flatMap (f := fun s : Settlement => leaseOf s.permit).mpr
      ⟨settlement, hsettling, hmem⟩)
    omega

section Enter
variable {mayOpen : Nat → Prop} {now : Nat} {t : State} {sent : List (Nat × ScheduleOutcome)}
variable {returned : List Nat} {work : Section}

theorem mem_granted {id : Nat} : id ∈ granted sent ↔
    ∃ c permit, (c, .dispatch permit) ∈ sent ∧ permit.reservationId = some id := by
  unfold granted
  constructor
  · intro h
    obtain ⟨⟨c, outcome⟩, hmem, hid⟩ := List.mem_flatMap.mp h
    cases outcome with
    | dispatch permit => exact ⟨c, permit, hmem, mem_leaseOf.mp hid⟩
    | _ => exact nomatch hid
  · rintro ⟨c, permit, hmem, hid⟩
    exact List.mem_flatMap.mpr ⟨_, hmem, mem_leaseOf.mpr hid⟩

theorem mem_of_sent_lookup {c : Nat} {outcome : ScheduleOutcome} (h : sent.lookup c = some outcome) :
    (c, outcome) ∈ sent := by
  induction sent with
  | nil => cases h
  | cons message rest ih =>
    obtain ⟨first, head⟩ := message
    rw [List.lookup_cons] at h
    split at h
    next heq =>
      cases h
      rw [eq_of_beq heq]
      exact List.mem_cons_self
    · exact List.mem_cons_of_mem _ (ih h)

/-- A queued id that moves use up is used up once. -/
private theorem ids_disjoint {s : State} (h : Moves inner mayOpen now s sent returned t) :
    (granted sent ++ returned ++ t.pending.keys).Nodup := by
  obtain ⟨used, hperm, hsub⟩ := h.ids
  exact hperm.nodup_iff.mp (hsub.nodup s.pending.keys_nodup)

private theorem queued_of_granted {s : State} (h : Moves inner mayOpen now s sent returned t) {id : Nat}
    (hid : id ∈ granted sent ∨ id ∈ returned ∨ id ∈ t.pending) : id ∈ s.pending := by
  refine AList.mem_keys.mpr (h.ids.subset ?_)
  rcases hid with hid | hid | hid
  · simp [hid]
  · simp [hid]
  · simp [AList.mem_keys.mp hid]

/-- A permit in a channel after delivery was there before, or is for the id of the channel. -/
private theorem Sys.Owned.delivered {s : State} (h : sys.Owned)
    (hsub : s.pending.entries.Sublist sys.state.pending.entries)
    (hmoves : Moves inner mayOpen now s sent returned t) {c : Nat} {permit : SchedulePermit}
    (hchannel : (deliver sent sys.calls c).channel = some (.dispatch permit)) :
    permit.reservationId = some c ∧ ((c, .dispatch permit) ∈ sent ∨
      (sys.calls c).channel = some (.dispatch permit)) := by
  unfold deliver at hchannel
  dsimp only at hchannel
  cases hlookup : sent.lookup c with
  | none =>
    rw [hlookup, Option.none_or] at hchannel
    exact ⟨h.channels c permit hchannel, .inr hchannel⟩
  | some outcome =>
    rw [hlookup, Option.some_or] at hchannel
    cases hchannel
    have hsent := mem_of_sent_lookup hlookup
    obtain ⟨-, id, pending, found, hsender, rfl⟩ := hmoves.granted hsent
    have hid := (h.queued id pending (lookup_of_sublist hsub found)).1
    refine ⟨?_, .inl hsent⟩
    rw [← hsender, hid]
    rfl

/-- Delivery and returned permits give a queued id at most one owner, and others none. -/
private theorem Sys.Owned.owners_enter {s : State} (h : sys.Owned)
    (hsub : s.pending.entries.Sublist sys.state.pending.entries)
    (hmoves : Moves inner mayOpen now s sent returned t) (id : Nat) :
    (leaseIn (deliver sent sys.calls id).channel).count id + (returned ++ sys.leaseCleanups).count id ≤
      (leaseIn (sys.calls id).channel).count id + sys.leaseCleanups.count id +
        (granted sent ++ returned).count id := by
  have hchannel : (leaseIn (deliver sent sys.calls id).channel).count id ≤
      (leaseIn (sys.calls id).channel).count id + (granted sent).count id := by
    cases hdeliver : (deliver sent sys.calls id).channel with
    | none => exact Nat.zero_le _
    | some outcome =>
      cases outcome with
      | dispatch permit =>
        obtain ⟨hid, hsent | hold⟩ := h.delivered hsub hmoves hdeliver
        · have hpos := List.count_pos_iff.mpr (mem_granted.mpr ⟨id, permit, hsent, hid⟩)
          have hone : (leaseIn (some (.dispatch permit))).count id = 1 := by
            simp [leaseIn, leaseOf, hid]
          omega
        · rw [hold]
          exact Nat.le_add_right _ _
      | _ => exact Nat.zero_le _
  rw [List.count_append, List.count_append]
  omega

/-- What a section opens: nothing new, and no slot is missing that has an owner. -/
structure Sys.Opens (sys : Sys) (opened : State) : Prop where
  pending : opened.pending.entries.Sublist sys.state.pending.entries
  nextId : opened.nextId = sys.state.nextId
  events : ∀ event ∈ opened.events, ∃ old ∈ sys.state.events, old.id = event.id
  active : ∀ id ∈ opened.active, id ∈ sys.state.active
  kept : ∀ id ∈ sys.state.active, id ∈ opened.active ∨ sys.owners id = 0

/-- Moves from an opened state keep the books. -/
private theorem Sys.Owned.moved {opened : State} (h : sys.Owned) (hopens : sys.Opens opened)
    (hmoves : Moves inner mayOpen now opened sent returned t) :
    ({ sys with
      state := t
      calls := deliver sent sys.calls
      leaseCleanups := returned ++ sys.leaseCleanups } : Sys).Owned := by
  have hnodup := ids_disjoint hmoves
  have hqueued : ∀ id, id ∈ granted sent ∨ id ∈ returned ∨ id ∈ t.pending → id ∈ sys.state.pending := by
    intro id hid
    obtain ⟨pending, found⟩ := Option.isSome_iff_exists.mp
      (AList.lookup_isSome.mpr (queued_of_granted hmoves hid))
    exact mem_of_lookup (lookup_of_sublist hopens.pending found)
  have howners : ∀ id, Sys.owners { sys with
      state := t
      calls := deliver sent sys.calls
      leaseCleanups := returned ++ sys.leaseCleanups } id ≤
        sys.owners id + (granted sent ++ returned).count id := by
    intro id
    have hle := h.owners_enter hopens.pending hmoves id
    unfold Sys.owners
    dsimp only
    omega
  have hfresh : ∀ id, id ∉ sys.state.pending ∨ id ∈ t.pending → (granted sent ++ returned).count id = 0 := by
    intro id hid
    refine List.count_eq_zero.mpr fun hmem => ?_
    rcases hid with hid | hid
    · rcases List.mem_append.mp hmem with hmem | hmem
      · exact hid (hqueued id (.inl hmem))
      · exact hid (hqueued id (.inr (.inl hmem)))
    · exact (List.nodup_append.mp hnodup).2.2 id hmem id (AList.mem_keys.mp hid) rfl
  refine ⟨hmoves.nextId.trans (hopens.nextId.trans h.numbered), fun id pending found => ?_,
    fun c permit hchannel => (h.delivered hopens.pending hmoves hchannel).1, fun id => ?_,
    fun id hid => ?_, fun permit id hholds hid => ?_, h.aborts⟩
  · exact h.queued id pending (lookup_of_sublist hopens.pending (hmoves.pending found))
  · -- A queued id had no owner before, and moves add none to any other.
    have hle := howners id
    by_cases hid : id ∈ sys.state.pending
    · have hzero := (h.unused id (.inl hid)).owners
      have hone := List.nodup_iff_count_le_one.mp (List.nodup_append.mp hnodup).1 id
      omega
    · have hzero := hfresh id (.inl hid)
      have hone := h.once id
      omega
  · -- An id that is still queued, or not yet issued, was not used.
    have hold : sys.Unused id := h.unused id (hid.imp_left (fun hid => hqueued id (.inr (.inr hid))))
    have hzero : (granted sent ++ returned).count id = 0 := by
      refine hfresh id (hid.symm.imp_left (fun hle hmem => ?_))
      obtain ⟨pending, found⟩ := Option.isSome_iff_exists.mp (AList.lookup_isSome.mpr hmem)
      exact absurd (h.queued id pending found).2 (Nat.not_lt.mpr hle)
    have hnot : id ∉ granted sent := fun hmem =>
      List.count_eq_zero.mp hzero (List.mem_append_left _ hmem)
    refine ⟨?_, fun hmem => ?_, fun event hevent heq => ?_⟩
    · have hle := howners id
      have hnone := hold.owners
      omega
    · rcases hmoves.active hmem with hmem | hmem
      · exact hold.active (hopens.active id hmem)
      · exact hnot hmem
    · rcases hmoves.recorded hevent with hevent | hmem
      · obtain ⟨old, holdEvent, heq'⟩ := hopens.events event hevent
        exact hold.events old holdEvent (heq'.trans heq)
      · exact hnot (heq ▸ hmem)
  · -- A permit held before is for an active id that is not queued; a new one makes its id active.
    have hbefore : sys.Holds permit → id ∈ t.active := by
      intro hholds
      have hpos := h.owner_of_holds hholds hid
      have hnot : id ∉ opened.pending := fun hmem => by
        obtain ⟨pending, found⟩ := Option.isSome_iff_exists.mp (AList.lookup_isSome.mpr hmem)
        have hzero := (h.unused id (.inl (mem_of_lookup (lookup_of_sublist hopens.pending found)))).owners
        omega
      refine hmoves.keeps_active hnot ((hopens.kept id (h.backed permit id hholds hid)).resolve_right ?_)
      omega
    rcases hholds with hheld | ⟨c, hchannel⟩ | hsettling
    · exact hbefore (.inl hheld)
    · obtain ⟨-, hsent | hold⟩ := h.delivered hopens.pending hmoves hchannel
      · exact hmoves.grants_active (mem_granted.mpr ⟨c, permit, hsent, hid⟩)
      · exact hbefore (.inr (.inl ⟨c, hold⟩))
    · exact hbefore (.inr (.inr hsettling))

/-- A section keeps the books, once the reservation it gives back has no owner left. -/
theorem Sys.Owned.enter (h : sys.Owned) (hwork : work.queues = false)
    (hreleased : ∀ id, work.releases = some id → sys.owners id = 0) (closed : Nat → Closings) (now : Nat) :
    (sys.enter inner closed now work).Owned := by
  have hmoves := @Section.run_moves inner (sys.closings closed) (fun _ => True) (fun _ _ _ => trivial) now
    sys.state work hwork
  refine h.moved ⟨work.opened_pending inner now sys.state, work.opened_nextId inner now sys.state,
    fun event hevent => ?_, fun id hid => ?_, fun id hid => ?_⟩ hmoves
  · obtain ⟨old, hold, heq, -⟩ := Section.edit_events (Section.opened_events hevent)
    exact ⟨old, hold, heq⟩
  · rw [Section.opened_active] at hid
    split at hid
    · exact hid
    · exact (AList.mem_erase.mp hid).2
  · rw [Section.opened_active]
    cases hrel : work.releases with
    | none => exact .inl hid
    | some released =>
      by_cases heq : id = released
      · exact .inr (heq ▸ hreleased released hrel)
      · exact .inl (AList.mem_erase.mpr ⟨heq, hid⟩)

end Enter

/-- A step that only passes permits on, or loses them, keeps the books. -/
private theorem Sys.Owned.transfer (h : sys.Owned) {next : Sys} (hstate : next.state = sys.state)
    (hissued : next.issued = sys.issued)
    (hchannels : ∀ c permit, (next.calls c).channel = some (.dispatch permit) →
      (sys.calls c).channel = some (.dispatch permit))
    (howners : ∀ id, next.owners id ≤ sys.owners id)
    (hholds : ∀ permit, next.Holds permit → sys.Holds permit ∨ permit.reservationId = none)
    (haborts : ∀ permit id, .abort permit id ∈ next.settling →
      .abort permit id ∈ sys.settling ∨ permit.reservationId = some id) : next.Owned := by
  refine ⟨by rw [hstate, hissued, h.numbered], fun id pending found => ?_, fun c permit hchannel => ?_,
    fun id => Nat.le_trans (howners id) (h.once id), fun id hid => ?_, fun permit id hheld hid => ?_,
    fun permit id hmem => ?_⟩
  · rw [hstate] at found
    rw [hissued]
    exact h.queued id pending found
  · exact h.channels c permit (hchannels c permit hchannel)
  · rw [hstate, hissued] at hid
    have hold := h.unused id hid
    refine ⟨Nat.le_zero.mp (hold.owners ▸ howners id), ?_, ?_⟩
    · rw [hstate]
      exact hold.active
    · rw [hstate]
      exact hold.events
  · rw [hstate]
    rcases hholds permit hheld with hheld | hnone
    · exact h.backed permit id hheld hid
    · rw [hnone] at hid
      cases hid
  · rcases haborts permit id hmem with hmem | hid
    · exact h.aborts permit id hmem
    · exact hid

/-- A call moves on without touching its channel. -/
private theorem Sys.Owned.moveTo (h : sys.Owned) (c : Nat) (phase : Phase) : (sys.moveTo c phase).Owned := by
  have hchannel : ∀ other, ((sys.moveTo c phase).calls other).channel = (sys.calls other).channel := by
    intro other
    unfold Sys.moveTo Sys.update
    dsimp only
    split
    next heq => rw [heq]
    · rfl
  refine h.transfer rfl rfl (fun other permit hsome => hchannel other ▸ hsome) (fun id => ?_)
    (fun permit hholds => .inl ?_) (fun permit id hmem => .inl hmem)
  · unfold Sys.owners
    rw [hchannel]
    exact Nat.le_refl _
  · rcases hholds with hheld | ⟨other, hsome⟩ | hsettling
    · exact .inl hheld
    · exact .inr (.inl ⟨other, hchannel other ▸ hsome⟩)
    · exact .inr (.inr hsettling)

/-- A call empties its channel; what was in it goes to the caller or to a clean-up. -/
private theorem Sys.Owned.empty (h : sys.Owned) (c : Nat) (phase : Phase) {held : List SchedulePermit}
    {cleanups : List Nat}
    (hheld : ∀ permit ∈ held, permit ∈ sys.held ∨ (sys.calls c).channel = some (.dispatch permit))
    (hcount : ∀ id, (held.flatMap leaseOf).count id + cleanups.count id =
      (sys.held.flatMap leaseOf).count id + sys.leaseCleanups.count id +
        (leaseIn (sys.calls c).channel).count id) :
    ({ sys.update c { sys.calls c with channel := none, phase } with
      held, leaseCleanups := cleanups } : Sys).Owned := by
  have hchannels : ∀ other permit, ((sys.update c { sys.calls c with channel := none, phase }).calls
      other).channel = some (.dispatch permit) → (sys.calls other).channel = some (.dispatch permit) := by
    intro other permit hsome
    unfold Sys.update at hsome
    dsimp only at hsome
    split at hsome
    · cases hsome
    · exact hsome
  refine h.transfer rfl rfl hchannels (fun id => ?_) (fun permit hholds => .inl ?_)
    (fun permit id hmem => .inl hmem)
  · have heq := hcount id
    unfold Sys.owners Sys.update
    dsimp only
    by_cases hid : id = c
    · rw [if_pos hid]
      cases hid
      simp only [leaseIn_none, List.count_nil]
      omega
    · -- The permit in the channel is for the channel's own id.
      rw [if_neg hid]
      have hnone : (leaseIn (sys.calls c).channel).count id = 0 := by
        cases hsome : (sys.calls c).channel with
        | none => rfl
        | some outcome =>
          cases outcome with
          | dispatch permit =>
            have hown := h.channels c permit hsome
            simp [leaseIn, leaseOf, hown, Ne.symm hid]
          | _ => rfl
      omega
  · rcases hholds with hmem | ⟨other, hsome⟩ | hsettling
    · rcases hheld permit hmem with hmem | hsome
      · exact .inl hmem
      · exact .inr (.inl ⟨c, hsome⟩)
    · exact .inr (.inl ⟨other, hchannels other permit hsome⟩)
    · exact .inr (.inr hsettling)

/-- A new call takes an id and a channel that nothing knows. -/
private theorem Sys.Owned.issue (h : sys.Owned) (hbound : sys.issued + 1 < 2 ^ 64) (call : Call)
    (hchannel : call.channel = none) {pending : Pending} (hsender : pending.sender = sys.issued)
    (coalesceUntil : Option Nat) (pendingBytes : Nat) :
    ({ sys.update sys.issued call with
      state := { sys.state with
        nextId := (sys.state.nextId + 1) % 2 ^ 64, coalesceUntil, pendingBytes
        pending := sys.state.pending.insert sys.state.nextId pending }
      issued := sys.issued + 1 } : Sys).Owned := by
  have hchannels : ∀ c permit, ((sys.update sys.issued call).calls c).channel = some (.dispatch permit) →
      (sys.calls c).channel = some (.dispatch permit) := by
    intro c permit hsome
    unfold Sys.update at hsome
    dsimp only at hsome
    split at hsome
    · rw [hchannel] at hsome
      cases hsome
    · exact hsome
  have howners : ∀ id, Sys.owners { sys.update sys.issued call with
      state := { sys.state with
        nextId := (sys.state.nextId + 1) % 2 ^ 64, coalesceUntil, pendingBytes
        pending := sys.state.pending.insert sys.state.nextId pending }
      issued := sys.issued + 1 } id ≤ sys.owners id := by
    intro id
    unfold Sys.owners Sys.update
    dsimp only
    split
    next heq =>
      rw [hchannel, leaseIn_none, List.count_nil]
      omega
    · exact Nat.le_refl _
  refine ⟨?_, fun id entry found => ?_, fun c permit hsome => h.channels c permit (hchannels c permit hsome),
    fun id => Nat.le_trans (howners id) (h.once id), fun id hid => ?_, fun permit id hholds hid => ?_,
    h.aborts⟩
  · change (sys.state.nextId + 1) % 2 ^ 64 = sys.issued + 1
    rw [h.numbered]
    exact Nat.mod_eq_of_lt hbound
  · change (sys.state.pending.insert sys.state.nextId pending).lookup id = some entry at found
    rw [h.numbered] at found
    by_cases heq : id = sys.issued
    · rw [heq, AList.lookup_insert] at found
      cases found
      exact ⟨heq ▸ hsender, heq ▸ Nat.lt_succ_self _⟩
    · rw [AList.lookup_insert_ne heq] at found
      exact ⟨(h.queued id entry found).1, Nat.lt_succ_of_lt (h.queued id entry found).2⟩
  · have hold : sys.Unused id := by
      rcases hid with hid | hid
      · change id ∈ sys.state.pending.insert sys.state.nextId pending at hid
        rw [AList.mem_insert, h.numbered] at hid
        rcases hid with rfl | hid
        · exact h.unused _ (.inr (Nat.le_refl _))
        · exact h.unused id (.inl hid)
      · exact h.unused id (.inr (Nat.le_of_succ_le hid))
    exact ⟨Nat.le_zero.mp (hold.owners ▸ howners id), hold.active, hold.events⟩
  · refine h.backed permit id ?_ hid
    rcases hholds with hheld | ⟨c, hsome⟩ | hsettling
    · exact .inl hheld
    · exact .inr (.inl ⟨c, hchannels c permit hsome⟩)
    · exact .inr (.inr hsettling)

/-- Pruning alone keeps the books. -/
private theorem Sys.Owned.pruned (h : sys.Owned) (inner : Inner) (now : Nat) :
    ({ sys with state := pruneEvents inner.policy now sys.state } : Sys).Owned :=
  ⟨h.numbered, h.queued, h.channels, h.once, fun id hid =>
    ⟨(h.unused id hid).owners, (h.unused id hid).active, fun event hevent =>
      (h.unused id hid).events event ((List.dropWhile_sublist _).subset hevent)⟩, h.backed, h.aborts⟩

private theorem Sys.Owned.queue (h : sys.Owned) (request : ScheduleRequest) (started : Nat)
    (hbound : (sys.queue inner request started).issued < 2 ^ 64) :
    (sys.queue inner request started).Owned := by
  have hpruned := h.pruned inner sys.clock
  cases hfull : queueFull inner request (pruneEvents inner.policy sys.clock sys.state) with
  | true =>
    rw [Sys.queue_full started hfull]
    exact hpruned
  | false =>
    rw [Sys.queue_room started hfull] at hbound ⊢
    rw [enqueue_room hfull]
    exact hpruned.issue hbound _ rfl rfl _ _

/-- A dropped permit leaves its reservation to a clean-up. -/
private theorem Sys.Owned.dropPermit (h : sys.Owned) {permit : SchedulePermit} (hheld : permit ∈ sys.held) :
    ({ sys with held := sys.held.erase permit, leaseCleanups := leaseOf permit ++ sys.leaseCleanups } :
      Sys).Owned := by
  refine h.transfer rfl rfl (fun _ _ hsome => hsome) (fun id => ?_) (fun permit' hholds => .inl ?_)
    (fun permit' id hmem => .inl hmem)
  · have hcount := count_flatMap_erase hheld leaseOf id
    unfold Sys.owners
    dsimp only
    rw [List.count_append]
    omega
  · exact hholds.imp_left List.mem_of_mem_erase

private theorem Sys.Owned.settle (h : sys.Owned) {settlement : Settlement}
    (hheld : settlement.permit ∈ sys.held) (hstarts : settlement.Starts sys.clock) :
    ({ sys with held := sys.held.erase settlement.permit, settling := settlement :: sys.settling } :
      Sys).Owned := by
  refine h.transfer rfl rfl (fun _ _ hsome => hsome) (fun id => ?_) (fun permit hholds => .inl ?_)
    (fun permit id hmem => ?_)
  · have hcount := count_flatMap_erase hheld leaseOf id
    unfold Sys.owners
    dsimp only
    rw [List.flatMap_cons, List.count_append]
    omega
  · rcases hholds with hmem | hchannel | ⟨other, hmem, rfl⟩
    · exact .inl (List.mem_of_mem_erase hmem)
    · exact .inr (.inl hchannel)
    · rcases List.mem_cons.mp hmem with rfl | hmem
      · exact .inl hheld
      · exact .inr (.inr ⟨other, hmem, rfl⟩)
  · rcases List.mem_cons.mp hmem with rfl | hmem
    · exact .inr hstarts
    · exact .inl hmem

/-- A settlement that is over, or gone, leaves no owner behind. -/
theorem Sys.Owned.unsettle (h : sys.Owned) {settlement : Settlement}
    (hsettling : settlement ∈ sys.settling) :
    let next : Sys := { sys with settling := sys.settling.erase settlement }
    next.Owned ∧ ∀ id, settlement.permit.reservationId = some id → next.owners id = 0 := by
  have hcount := count_flatMap_erase hsettling (fun settlement => leaseOf settlement.permit)
  refine ⟨h.transfer rfl rfl (fun _ _ hsome => hsome) (fun id => ?_) (fun permit hholds => .inl ?_)
    (fun permit id hmem => .inl (List.mem_of_mem_erase hmem)), fun id hid => ?_⟩
  · have heq := hcount id
    unfold Sys.owners
    dsimp only
    omega
  · rcases hholds with hmem | hchannel | ⟨other, hmem, heq⟩
    · exact .inl hmem
    · exact .inr (.inl hchannel)
    · exact .inr (.inr ⟨other, List.mem_of_mem_erase hmem, heq⟩)
  · have heq := hcount id
    have hone := h.once id
    have hpos := List.count_pos_iff.mpr (mem_leaseOf.mpr hid)
    unfold Sys.owners at hone ⊢
    dsimp only
    omega

private theorem Sys.Owned.unclean (h : sys.Owned) {id : Nat} (hmem : id ∈ sys.leaseCleanups) :
    let next : Sys := { sys with leaseCleanups := sys.leaseCleanups.erase id }
    next.Owned ∧ next.owners id = 0 := by
  have hself : (sys.leaseCleanups.erase id).count id = sys.leaseCleanups.count id - 1 :=
    List.count_erase_self
  have hle : ∀ other, (sys.leaseCleanups.erase id).count other ≤ sys.leaseCleanups.count other :=
    fun other => List.erase_sublist.count_le other
  refine ⟨h.transfer rfl rfl (fun _ _ hsome => hsome) (fun other => ?_) (fun permit hholds => .inl hholds)
    (fun permit other hmem => .inl hmem), ?_⟩
  · have hother := hle other
    unfold Sys.owners
    dsimp only
    omega
  · have hone := h.once id
    have hpos := List.count_pos_iff.mpr hmem
    unfold Sys.owners at hone ⊢
    dsimp only
    omega

/-- Every step keeps the books while ids last. -/
theorem Sys.Owned.next (h : sys.Owned) {action : Action} (henabled : sys.Enabled inner action)
    (hbound : (sys.next inner action).issued < 2 ^ 64) : (sys.next inner action).Owned := by
  have same : ∀ next : Sys, next.state = sys.state → next.issued = sys.issued → next.calls = sys.calls →
      next.held = sys.held → next.settling = sys.settling → next.leaseCleanups = sys.leaseCleanups →
      next.Owned := by
    intro next hstate hissued hcalls hheld hsettling hcleanups
    refine h.transfer hstate hissued (by rw [hcalls]; exact fun _ _ hsome => hsome) (fun id => ?_)
      (fun permit hholds => .inl ?_) (by rw [hsettling]; exact fun _ _ hmem => .inl hmem)
    · unfold Sys.owners
      rw [hcalls, hheld, hsettling, hcleanups]
    · unfold Sys.Holds at hholds
      rw [hcalls, hheld, hsettling] at hholds
      exact hholds
  cases action with
  | tick elapsed => exact same _ rfl rfl rfl rfl rfl rfl
  | bypass request =>
    refine h.transfer rfl rfl (fun _ _ hsome => hsome) (fun id => Nat.le_refl _) (fun permit hholds => ?_)
      (fun permit id hmem => .inl hmem)
    rcases hholds with hheld | hrest
    · rcases List.mem_cons.mp hheld with rfl | hheld
      · exact .inr rfl
      · exact .inl (.inl hheld)
    · exact .inl (.inr hrest)
  | enqueue request started => exact h.queue _ _ hbound
  | read c | poll c now sleepFor | arm c now sleepFor | wake c timer | check c now sleepFor =>
    exact h.moveTo c _
  | pass c now closed => exact (h.enter rfl (fun _ hid => by cases hid) closed now).moveTo c _
  | expire c => exact (h.enter rfl (fun _ hid => by cases hid) _ sys.clock).moveTo c _
  | receive c outcome =>
    obtain ⟨-, hchannel⟩ := henabled
    cases outcome with
    | dispatch permit =>
      refine h.empty c _ (fun other hmem => ?_) (fun id => ?_)
      · rcases List.mem_cons.mp hmem with rfl | hmem
        · exact .inr hchannel
        · exact .inl hmem
      · change ((permit :: sys.held).flatMap leaseOf).count id + sys.leaseCleanups.count id = _
        rw [hchannel, List.flatMap_cons, List.count_append]
        change _ = _ + (leaseOf permit).count id
        omega
    | _ =>
      refine h.empty c _ (fun other hmem => .inl hmem) (fun id => ?_)
      rw [hchannel]
      rfl
  | cancel c =>
    have hmoved := h.moveTo c (.closing none)
    exact hmoved.transfer rfl rfl (fun _ _ hsome => hsome) (fun id => Nat.le_refl _)
      (fun permit hholds => .inl hholds) (fun permit id hmem => .inl hmem)
  | close c reply =>
    refine h.empty c _ (fun other hmem => .inl hmem) (fun id => ?_)
    change (sys.held.flatMap leaseOf).count id + (leaseIn (sys.calls c).channel ++ sys.leaseCleanups).count id = _
    rw [List.count_append]
    omega
  | dropPermit permit => exact h.dropPermit henabled
  | settle settlement => exact h.settle henabled.1 henabled.2
  | finish settlement closed =>
    obtain ⟨hsettled, hzero⟩ := h.unsettle henabled
    refine hsettled.enter settlement.work_queues (fun id hid => hzero id ?_) closed _
    cases settlement with
    | complete permit now inputTokens outputTokens cacheReadHit => exact hid
    | abort permit other =>
      cases hid
      exact h.aborts permit id henabled
  | cancelSettle settlement => exact (h.unsettle henabled).1
  | cleanLease id closed =>
    obtain ⟨hcleaned, hzero⟩ := h.unclean henabled
    refine hcleaned.enter rfl (fun other hid => ?_) closed sys.clock
    cases hid
    exact hzero
  | cleanPending id closed =>
    have hsame := same { sys with pendingCleanups := sys.pendingCleanups.erase id } rfl rfl rfl rfl rfl rfl
    exact hsame.enter rfl (fun _ hid => by cases hid) closed sys.clock

theorem Sys.owned_initial : Sys.initial.Owned where
  numbered := rfl
  queued _ _ found := nomatch found
  channels _ _ hsome := nomatch hsome
  once _ := Nat.zero_le _
  unused _ _ := ⟨rfl, AList.notMem_empty _, fun _ hmem => nomatch hmem⟩
  backed permit id hholds _ := by
    rcases hholds with hmem | ⟨c, hsome⟩ | ⟨settlement, hmem, -⟩
    · exact nomatch hmem
    · exact nomatch hsome
    · exact nomatch hmem
  aborts _ _ hmem := nomatch hmem

/-- Ids are only counted up. -/
theorem Sys.issued_le (inner : Inner) (sys : Sys) (action : Action) :
    sys.issued ≤ (sys.next inner action).issued := by
  cases action with
  | enqueue request started =>
    cases hfull : queueFull inner (prepare inner request) (pruneEvents inner.policy sys.clock sys.state) with
    | true => exact Nat.le_of_eq (congrArg Sys.issued (Sys.queue_full started hfull)).symm
    | false =>
      exact (Nat.le_succ _).trans_eq (congrArg Sys.issued (Sys.queue_room started hfull)).symm
  | receive c outcome => cases outcome <;> exact Nat.le_refl _
  | _ => exact Nat.le_refl _

/-- With fewer than 2^64 acquires, every state of a run is owned. -/
theorem Sys.owned {allowed : Sys → Action → Prop} (h : (scheduler inner).Run allowed sys)
    (hbound : sys.issued < 2 ^ 64) : sys.Owned := by
  induction h with
  | initial => exact Sys.owned_initial
  | step action _ henabled _ ih =>
    exact (ih (Nat.lt_of_le_of_lt (Sys.issued_le inner _ action) hbound)).next henabled hbound

end Kaiion.Scheduling
