import Kaiion.Scheduling.Ownership

/-! No concurrency slot is lost. Every active id belongs to someone who will give it back, in runs
in which no completion or abort is dropped while it waits for the lock. -/
namespace Kaiion.Scheduling
open Foundation

variable {inner : Inner} {sys : Sys}

/-- Who will give an active id back. -/
inductive Sys.Owner (sys : Sys) (id : Nat) : Prop where
  | held (permit : SchedulePermit) (mem : permit ∈ sys.held) (reserves : permit.reservationId = some id)
  | sent (c : Nat) (permit : SchedulePermit) (receiver : (sys.calls c).phase.receiver = true)
      (channel : (sys.calls c).channel = some (.dispatch permit)) (reserves : permit.reservationId = some id)
  | settling (settlement : Settlement) (mem : settlement ∈ sys.settling)
      (reserves : settlement.permit.reservationId = some id)
  | cleanup (mem : id ∈ sys.leaseCleanups)

/-- Every active id has an owner. -/
def Sys.SlotsOwned (sys : Sys) : Prop := ∀ id ∈ sys.state.active, sys.Owner id

/-- No completion or abort of a reserved permit is dropped while it waits for the lock. -/
def settlesAll (_ : Sys) : Action → Prop
  | .cancelSettle settlement => settlement.permit.reservationId = none
  | _ => True

instance (sys : Sys) : DecidablePred (settlesAll sys)
  | .cancelSettle _ => inferInstanceAs (Decidable (_ = _))
  | .tick _ | .bypass _ | .enqueue _ _ | .read _ | .pass _ _ _ | .receive _ _ | .poll _ _ _ | .check _ _ _
  | .arm _ _ _ | .wake _ _ | .expire _ | .cancel _ | .close _ _ | .dropPermit _ | .settle _ | .finish _ _
  | .cleanLease _ _ | .cleanPending _ _ => .isTrue trivial

/-- Channels are wired to one queued request each, and are empty while it is queued. -/
structure Sys.Wired (sys : Sys) : Prop where
  distinct : sys.state.senders.Nodup
  waiting : ∀ c ∈ sys.state.senders, c < sys.issued ∧ (sys.calls c).channel = none
  unborn : ∀ c, sys.issued ≤ c → (sys.calls c).channel = none
  aborts : ∀ permit id, .abort permit id ∈ sys.settling → permit.reservationId = some id

section Enter
variable {mayOpen : Nat → Prop} {now : Nat} {t opened : State} {sent : List (Nat × ScheduleOutcome)}
variable {returned : List Nat} {work : Section}

private theorem senders_sublist {s : State} (hsub : opened.pending.entries.Sublist s.pending.entries) :
    opened.senders.Sublist s.senders :=
  hsub.map _

theorem lookup_of_mem {c : Nat} {outcome : ScheduleOutcome} (hnodup : (sent.map Prod.fst).Nodup)
    (h : (c, outcome) ∈ sent) : sent.lookup c = some outcome := by
  induction sent with
  | nil => exact nomatch h
  | cons message rest ih =>
    obtain ⟨first, head⟩ := message
    obtain ⟨hfirst, hrest⟩ := List.nodup_cons.mp hnodup
    rw [List.lookup_cons]
    rcases List.mem_cons.mp h with heq | h
    · cases heq
      rw [beq_self_eq_true]
    · have hne : (c == first) = false := beq_false_of_ne fun heq =>
        hfirst (List.mem_map.mpr ⟨_, h, eq_of_beq (beq_iff_eq.mpr heq)⟩)
      rw [hne]
      exact ih hrest h

theorem deliver_of_mem {c : Nat} {outcome : ScheduleOutcome} (hnodup : (sent.map Prod.fst).Nodup)
    (h : (c, outcome) ∈ sent) (calls : Nat → Call) : (deliver sent calls c).channel = some outcome := by
  unfold deliver
  dsimp only
  rw [lookup_of_mem hnodup h]
  rfl

/-- Moves use every queued channel at most once. -/
theorem Sys.Wired.used (h : sys.Wired)
    (hsub : opened.pending.entries.Sublist sys.state.pending.entries)
    (hmoves : Moves inner mayOpen now opened sent returned t) :
    (sent.map Prod.fst ++ t.senders).Nodup ∧ ∀ c ∈ sent.map Prod.fst ++ t.senders, c ∈ sys.state.senders := by
  have hnodup := (senders_sublist hsub).nodup h.distinct
  obtain ⟨used, hperm, hused⟩ := hmoves.senders
  exact ⟨hperm.nodup_iff.mp (hused.nodup hnodup), fun c hc =>
    (senders_sublist hsub).subset (hused.subset (hperm.mem_iff.mpr hc))⟩

private theorem Sys.Wired.moved (h : sys.Wired)
    (hsub : opened.pending.entries.Sublist sys.state.pending.entries)
    (hmoves : Moves inner mayOpen now opened sent returned t) :
    ({ sys with
      state := t
      calls := deliver sent sys.calls
      leaseCleanups := returned ++ sys.leaseCleanups } : Sys).Wired := by
  obtain ⟨hnodup, hused⟩ := h.used hsub hmoves
  obtain ⟨-, hleft, hapart⟩ := List.nodup_append.mp hnodup
  -- A channel that gets no message stays as empty as it was.
  have hempty : ∀ c, c ∉ sent.map Prod.fst → (sys.calls c).channel = none →
      (deliver sent sys.calls c).channel = none := by
    intro c hnot hnone
    change (sent.lookup c).or (sys.calls c).channel = none
    cases hlookup : sent.lookup c with
    | none => rw [Option.none_or, hnone]
    | some outcome => exact absurd (List.mem_map_of_mem (f := Prod.fst) (mem_of_sent_lookup hlookup)) hnot
  refine ⟨hleft, fun c hc => ?_, fun c hle => ?_, h.aborts⟩
  · obtain ⟨hlt, hnone⟩ := h.waiting c (hused c (List.mem_append_right _ hc))
    exact ⟨hlt, hempty c (fun hmem => hapart c hmem c hc rfl) hnone⟩
  · exact hempty c (fun hmem => Nat.not_lt.mpr hle (h.waiting c (hused c (List.mem_append_left _ hmem))).1)
      (h.unborn c hle)

/-- Delivery leaves a full channel alone. -/
theorem Sys.Wired.keeps (h : sys.Wired)
    (hsub : opened.pending.entries.Sublist sys.state.pending.entries)
    (hmoves : Moves inner mayOpen now opened sent returned t) {c : Nat} {outcome : ScheduleOutcome}
    (hchannel : (sys.calls c).channel = some outcome) :
    (deliver sent sys.calls c).channel = some outcome := by
  have hnone : sent.lookup c = none := by
    cases hlookup : sent.lookup c with
    | none => rfl
    | some other =>
      have hmem := List.mem_map_of_mem (f := Prod.fst) (mem_of_sent_lookup hlookup)
      have hempty := (h.waiting c ((h.used hsub hmoves).2 c (List.mem_append_left _ hmem))).2
      rw [hchannel] at hempty
      cases hempty
  change (sent.lookup c).or (sys.calls c).channel = some outcome
  rw [hnone, hchannel]
  rfl

/-- A channel that a section finds open has its receiver. -/
theorem Sys.receiver_of_open (sys : Sys) {closed : Nat → Closings} {turn : Nat} {check : Check} {c : Nat}
    (hopen : sys.closings closed turn check c = false) : (sys.calls c).phase.receiver = true := by
  simp only [Sys.closings, Bool.and_eq_false_iff, Bool.or_eq_false_iff, Bool.not_eq_false'] at hopen
  rcases hopen with hlive | ⟨hreceiver, -⟩
  · unfold Phase.receiver
    split
    · rfl
    · exact hlive
  · exact hreceiver

/-- A section leaves every active id with an owner, if the id it gives back needs none. -/
private theorem Sys.Wired.slotsOwned (hwired : sys.Wired) {work : Section} (hwork : work.queues = false)
    (h : ∀ id ∈ sys.state.active, work.releases ≠ some id → sys.Owner id) (closed : Nat → Closings)
    (now : Nat) : (sys.enter inner closed now work).SlotsOwned := by
  have hmoves := @Section.run_moves inner (sys.closings closed) (fun c => (sys.calls c).phase.receiver = true)
    (fun _ _ hopen => sys.receiver_of_open hopen) now sys.state work hwork
  have hsub := work.opened_pending inner now sys.state
  intro id hid
  rcases hmoves.active hid with hactive | hgranted
  · rw [Section.opened_active] at hactive
    have hold : id ∈ sys.state.active ∧ work.releases ≠ some id := by
      cases hrel : work.releases with
      | none =>
        rw [hrel] at hactive
        exact ⟨hactive, nofun⟩
      | some released =>
        rw [hrel] at hactive
        obtain ⟨hne, hactive⟩ := AList.mem_erase.mp hactive
        exact ⟨hactive, fun heq => hne (Option.some.inj heq).symm⟩
    cases h id hold.1 hold.2 with
    | held permit mem reserves => exact .held permit mem reserves
    | sent c permit receiver channel reserves =>
      exact .sent c permit receiver (hwired.keeps hsub hmoves channel) reserves
    | settling settlement mem reserves => exact .settling settlement mem reserves
    | cleanup mem => exact .cleanup (List.mem_append_right _ mem)
  · obtain ⟨c, permit, hsent, hreserves⟩ := mem_granted.mp hgranted
    have hnodup := (List.nodup_append.mp (hwired.used hsub hmoves).1).1
    exact .sent c permit (hmoves.granted hsent).1 (deliver_of_mem hnodup hsent sys.calls) hreserves

end Enter

private theorem Sys.Wired.enter (h : sys.Wired) {work : Section} (hwork : work.queues = false)
    (closed : Nat → Closings) (now : Nat) : (sys.enter inner closed now work).Wired :=
  h.moved (work.opened_pending inner now sys.state)
    (@Section.run_moves inner (sys.closings closed) (fun _ => True) (fun _ _ _ => trivial) now sys.state work
      hwork)

private theorem Sys.Wired.transfer (h : sys.Wired) {next : Sys} (hstate : next.state = sys.state)
    (hissued : next.issued = sys.issued)
    (hchannels : ∀ c, (sys.calls c).channel = none → (next.calls c).channel = none)
    (haborts : ∀ permit id, .abort permit id ∈ next.settling →
      .abort permit id ∈ sys.settling ∨ permit.reservationId = some id) : next.Wired := by
  refine ⟨hstate ▸ h.distinct, fun c hc => ?_, fun c hle => hchannels c (h.unborn c (hissued ▸ hle)),
    fun permit id hmem => ?_⟩
  · rw [hstate] at hc
    obtain ⟨hlt, hempty⟩ := h.waiting c hc
    exact ⟨hissued ▸ hlt, hchannels c hempty⟩
  · rcases haborts permit id hmem with hmem | hid
    · exact h.aborts permit id hmem
    · exact hid

private theorem Sys.Wired.update (h : sys.Wired) (c : Nat) {call : Call}
    (hchannel : (sys.calls c).channel = none → call.channel = none) : (sys.update c call).Wired := by
  refine h.transfer rfl rfl (fun other hempty => ?_) (fun _ _ hmem => .inl hmem)
  unfold Sys.update
  dsimp only
  split
  next heq => exact hchannel (heq ▸ hempty)
  · exact hempty

private theorem Sys.Wired.queue (h : sys.Wired) (request : ScheduleRequest) (started : Nat) :
    (sys.queue inner request started).Wired := by
  cases hfull : queueFull inner request (pruneEvents inner.policy sys.clock sys.state) with
  | true =>
    rw [Sys.queue_full started hfull]
    exact ⟨h.distinct, h.waiting, h.unborn, h.aborts⟩
  | false =>
    rw [Sys.queue_room started hfull, enqueue_room hfull]
    -- The new channel is not one of those in use; an older entry may have to make way for the id.
    have hsub : ((sys.state.pending.erase sys.state.nextId).entries.map
        (fun entry => entry.2.sender)).Sublist sys.state.senders := (erase_entries_sublist _ _).map _
    have hnew : ∀ c ∈ (sys.state.pending.erase sys.state.nextId).entries.map (fun entry => entry.2.sender),
        c < sys.issued ∧ (sys.calls c).channel = none := fun c hc => h.waiting c (hsub.subset hc)
    refine ⟨?_, fun c hc => ?_, fun c hle => ?_, h.aborts⟩
    · exact List.nodup_cons.mpr ⟨fun hmem => Nat.lt_irrefl _ (hnew _ hmem).1, hsub.nodup h.distinct⟩
    · rcases List.mem_cons.mp hc with rfl | hc
      · exact ⟨Nat.lt_succ_self _, by simp [Sys.update]⟩
      · obtain ⟨hlt, hempty⟩ := hnew c hc
        refine ⟨Nat.lt_succ_of_lt hlt, ?_⟩
        change (if c = sys.issued then _ else sys.calls c).channel = none
        rw [if_neg (Nat.ne_of_lt hlt)]
        exact hempty
    · change (if c = sys.issued then _ else sys.calls c).channel = none
      rw [if_neg (Nat.ne_of_gt hle)]
      exact h.unborn c (Nat.le_of_succ_le hle)

theorem Sys.Wired.next (h : sys.Wired) {action : Action} (henabled : sys.Enabled inner action) :
    (sys.next inner action).Wired := by
  have settlingSublist : ∀ {next : Sys}, next.state = sys.state → next.issued = sys.issued →
      next.calls = sys.calls → next.settling.Sublist sys.settling → next.Wired := by
    intro next hstate hissued hcalls hsettling
    exact h.transfer hstate hissued (fun c hempty => hcalls ▸ hempty)
      (fun _ _ hmem => .inl (hsettling.subset hmem))
  cases action with
  | tick | bypass | dropPermit => exact settlingSublist rfl rfl rfl (.refl _)
  | cancelSettle settlement => exact settlingSublist rfl rfl rfl List.erase_sublist
  | cleanLease id closed =>
    have hcleaned : ({ sys with leaseCleanups := sys.leaseCleanups.erase id } : Sys).Wired :=
      settlingSublist rfl rfl rfl (.refl _)
    exact hcleaned.enter rfl closed sys.clock
  | cleanPending id closed =>
    have hcleaned : ({ sys with pendingCleanups := sys.pendingCleanups.erase id } : Sys).Wired :=
      settlingSublist rfl rfl rfl (.refl _)
    exact hcleaned.enter rfl closed sys.clock
  | finish settlement closed =>
    have hsettled : ({ sys with settling := sys.settling.erase settlement } : Sys).Wired :=
      settlingSublist rfl rfl rfl List.erase_sublist
    exact hsettled.enter settlement.work_queues closed _
  | settle settlement =>
    refine h.transfer rfl rfl (fun _ hempty => hempty) (fun permit id hmem => ?_)
    rcases List.mem_cons.mp hmem with rfl | hmem
    · exact .inr henabled.2
    · exact .inl hmem
  | enqueue request started => exact h.queue _ _
  | read c | poll c now sleepFor | arm c now sleepFor | wake c timer | check c now sleepFor =>
    exact h.update c fun hempty => hempty
  | pass c now closed => exact (h.enter rfl closed now).update c fun hempty => hempty
  | expire c => exact (h.enter rfl _ sys.clock).update c fun hempty => hempty
  | receive c outcome =>
    have hemptied : (sys.update c { sys.calls c with channel := none, phase := .returned outcome }).Wired :=
      h.update c fun _ => rfl
    cases outcome <;> exact ⟨hemptied.distinct, hemptied.waiting, hemptied.unborn, hemptied.aborts⟩
  | cancel c =>
    have hmoved : (sys.moveTo c (.closing none)).Wired := h.update c fun hempty => hempty
    exact ⟨hmoved.distinct, hmoved.waiting, hmoved.unborn, hmoved.aborts⟩
  | close c reply =>
    have hemptied : (sys.update c { sys.calls c with channel := none, phase := .closed reply }).Wired :=
      h.update c fun _ => rfl
    exact ⟨hemptied.distinct, hemptied.waiting, hemptied.unborn, hemptied.aborts⟩

theorem Sys.wired {allowed : Sys → Action → Prop} (h : (scheduler inner).Run allowed sys) : sys.Wired :=
  h.invariant ⟨.nil, fun _ hc => (nomatch hc), fun _ _ => rfl, fun _ _ hmem => (nomatch hmem)⟩
    (fun _ _ hwired henabled _ => hwired.next henabled)

/-- An owner stays one, or hands the reservation to the next. -/
private theorem Sys.Owner.carry {id : Nat} (h : sys.Owner id) {next : Sys} (hcalls : next.calls = sys.calls)
    (hheld : ∀ permit ∈ sys.held, permit.reservationId = some id → next.Owner id)
    (hsettling : ∀ settlement ∈ sys.settling, settlement.permit.reservationId = some id → next.Owner id)
    (hcleanups : id ∈ sys.leaseCleanups → next.Owner id) : next.Owner id := by
  cases h with
  | held permit mem reserves => exact hheld permit mem reserves
  | sent c permit receiver channel reserves =>
    exact .sent c permit (hcalls ▸ receiver) (hcalls ▸ channel) reserves
  | settling settlement mem reserves => exact hsettling settlement mem reserves
  | cleanup mem => exact hcleanups mem

private theorem Sys.Owner.mono {id : Nat} (h : sys.Owner id) {next : Sys} (hcalls : next.calls = sys.calls)
    (hheld : sys.held ⊆ next.held) (hsettling : sys.settling ⊆ next.settling)
    (hcleanups : sys.leaseCleanups ⊆ next.leaseCleanups) : next.Owner id :=
  h.carry hcalls (fun permit mem reserves => .held permit (hheld mem) reserves)
    (fun settlement mem reserves => .settling settlement (hsettling mem) reserves)
    (fun mem => .cleanup (hcleanups mem))

/-- One call changes; a permit in its channel stays there or finds another owner. -/
private theorem Sys.Owner.update {id : Nat} (h : sys.Owner id) (c : Nat) {call : Call} {next : Sys}
    (hcalls : next.calls = (sys.update c call).calls) (hheld : sys.held ⊆ next.held)
    (hsettling : next.settling = sys.settling) (hcleanups : sys.leaseCleanups ⊆ next.leaseCleanups)
    (hpermit : ∀ permit, (sys.calls c).channel = some (.dispatch permit) →
      permit.reservationId = some id → (call.phase.receiver = true ∧ call.channel = some (.dispatch permit)) ∨
        next.Owner id) : next.Owner id := by
  cases h with
  | held permit mem reserves => exact .held permit (hheld mem) reserves
  | sent other permit receiver channel reserves =>
    by_cases heq : other = c
    · rcases hpermit permit (heq ▸ channel) reserves with ⟨hreceiver, hchannel⟩ | howner
      · have hsame : next.calls c = call := by
          rw [hcalls]
          exact if_pos rfl
        exact .sent c permit (hsame ▸ hreceiver) (hsame ▸ hchannel) reserves
      · exact howner
    · have hsame : next.calls other = sys.calls other := by
        rw [hcalls]
        exact if_neg heq
      exact .sent other permit (hsame ▸ receiver) (hsame ▸ channel) reserves
  | settling settlement mem reserves => exact .settling settlement (hsettling ▸ mem) reserves
  | cleanup mem => exact .cleanup (hcleanups mem)

/-- A call moves on with its receiver. -/
private theorem Sys.Owner.moveTo {id : Nat} (h : sys.Owner id) (c : Nat) {phase : Phase}
    (hreceiver : phase.receiver = true) : (sys.moveTo c phase).Owner id :=
  h.update c rfl (List.Subset.refl _) rfl (List.Subset.refl _)
    (fun _ hchannel _ => .inl ⟨hreceiver, hchannel⟩)

/-- A call leaves its pass with its receiver. -/
theorem afterPass_receiver (closed : Nat → Closings) (c now : Nat) :
    (sys.afterPass inner closed c now).receiver = true := by
  unfold Sys.afterPass
  dsimp only
  split <;> rfl

theorem afterCheck_receiver (c now sleepFor : Nat) :
    (sys.afterCheck inner c now sleepFor).receiver = true := by
  unfold Sys.afterCheck
  split
  · rfl
  · split <;> rfl

private theorem Sys.SlotsOwned.queue (h : sys.SlotsOwned) (hwired : sys.Wired) (request : ScheduleRequest)
    (started : Nat) : (sys.queue inner request started).SlotsOwned := by
  cases hfull : queueFull inner request (pruneEvents inner.policy sys.clock sys.state) with
  | true =>
    rw [Sys.queue_full started hfull]
    exact fun id hid => (h id hid).mono rfl (List.Subset.refl _) (List.Subset.refl _) (List.Subset.refl _)
  | false =>
    rw [Sys.queue_room started hfull, enqueue_room hfull]
    refine fun id hid => (h id hid).update sys.issued rfl (List.Subset.refl _) rfl (List.Subset.refl _)
      (fun permit hchannel _ => ?_)
    rw [hwired.unborn _ (Nat.le_refl _)] at hchannel
    cases hchannel

/-- A step that settles what it starts leaves every active id with an owner. -/
theorem Sys.SlotsOwned.next (h : sys.SlotsOwned) (hwired : sys.Wired) {action : Action}
    (henabled : sys.Enabled inner action) (hallowed : settlesAll sys action) :
    (sys.next inner action).SlotsOwned := by
  cases action with
  | tick elapsed =>
    exact fun id hid => (h id hid).mono rfl (List.Subset.refl _) (List.Subset.refl _) (List.Subset.refl _)
  | bypass request =>
    exact fun id hid => (h id hid).mono rfl (List.subset_cons_self _ _) (List.Subset.refl _)
      (List.Subset.refl _)
  | enqueue request started => exact h.queue hwired _ _
  | read c | poll c now sleepFor | arm c now sleepFor | wake c timer =>
    exact fun id hid => (h id hid).moveTo c rfl
  | check c now sleepFor => exact fun id hid => (h id hid).moveTo c (afterCheck_receiver c now sleepFor)
  | pass c now closed =>
    have hentered : (sys.enter inner closed now (.pass (sys.calls c).id (sys.calls c).request)).SlotsOwned :=
      hwired.slotsOwned rfl (fun id hid _ => h id hid) closed now
    exact fun id hid => (hentered id hid).moveTo c (afterPass_receiver closed c now)
  | expire c =>
    have hentered : (sys.enter inner (fun _ _ _ => true) sys.clock (.expire (sys.calls c).id)).SlotsOwned :=
      hwired.slotsOwned rfl (fun id hid _ => h id hid) _ _
    exact fun id hid => (hentered id hid).moveTo c rfl
  | receive c outcome =>
    intro id hid
    cases outcome with
    | dispatch permit =>
      refine (h id hid).update c rfl (List.subset_cons_self _ _) rfl (List.Subset.refl _)
        (fun other hchannel reserves => .inr (.held other ?_ reserves))
      cases henabled.2.symm.trans hchannel
      exact List.mem_cons_self
    | _ =>
      exact (h id hid).update c rfl (List.Subset.refl _) rfl (List.Subset.refl _)
        (fun _ hchannel _ => nomatch henabled.2.symm.trans hchannel)
  | cancel c =>
    intro id hid
    have hmoved : (sys.moveTo c (.closing none)).Owner id := (h id hid).moveTo c rfl
    exact hmoved.mono rfl (List.Subset.refl _) (List.Subset.refl _) (List.Subset.refl _)
  | close c reply =>
    refine fun id hid => (h id hid).update c rfl (List.Subset.refl _) rfl (List.subset_append_right _ _)
      (fun permit hchannel reserves => .inr (.cleanup (List.mem_append_left _ ?_)))
    rw [hchannel]
    exact mem_leaseOf.mpr reserves
  | dropPermit permit =>
    refine fun id hid => (h id hid).carry rfl (fun other mem reserves => ?_)
      (fun settlement mem reserves => .settling settlement mem reserves)
      (fun mem => .cleanup (List.mem_append_right _ mem))
    by_cases heq : other = permit
    · exact .cleanup (List.mem_append_left _ (mem_leaseOf.mpr (heq ▸ reserves)))
    · exact .held other ((List.mem_erase_of_ne heq).mpr mem) reserves
  | settle settlement =>
    refine fun id hid => (h id hid).carry rfl (fun other mem reserves => ?_)
      (fun other mem reserves => .settling other (List.mem_cons_of_mem _ mem) reserves)
      (fun mem => .cleanup mem)
    by_cases heq : other = settlement.permit
    · exact .settling settlement List.mem_cons_self (heq ▸ reserves)
    · exact .held other ((List.mem_erase_of_ne heq).mpr mem) reserves
  | finish settlement closed =>
    have hsettled : ({ sys with settling := sys.settling.erase settlement } : Sys).Wired :=
      hwired.transfer rfl rfl (fun _ hempty => hempty) (fun _ _ hmem => .inl (List.mem_of_mem_erase hmem))
    refine hsettled.slotsOwned settlement.work_queues (fun id hid hkept => ?_) closed _
    refine (h id hid).carry rfl (fun permit mem reserves => .held permit mem reserves)
      (fun other mem reserves => ?_) (fun mem => .cleanup mem)
    by_cases heq : other = settlement
    · subst heq
      refine absurd ?_ hkept
      cases other with
      | complete permit now inputTokens outputTokens cacheReadHit => exact reserves
      | abort permit released => exact (hwired.aborts permit released henabled).symm.trans reserves
    · exact .settling other ((List.mem_erase_of_ne heq).mpr mem) reserves
  | cancelSettle settlement =>
    refine fun id hid => (h id hid).carry rfl (fun permit mem reserves => .held permit mem reserves)
      (fun other mem reserves => ?_) (fun mem => .cleanup mem)
    by_cases heq : other = settlement
    · rw [heq, show settlement.permit.reservationId = none from hallowed] at reserves
      cases reserves
    · exact .settling other ((List.mem_erase_of_ne heq).mpr mem) reserves
  | cleanLease released closed =>
    have hcleaned : ({ sys with leaseCleanups := sys.leaseCleanups.erase released } : Sys).Wired :=
      hwired.transfer rfl rfl (fun _ hempty => hempty) (fun _ _ hmem => .inl hmem)
    refine hcleaned.slotsOwned rfl (fun id hid hkept => ?_) closed sys.clock
    refine (h id hid).carry rfl (fun permit mem reserves => .held permit mem reserves)
      (fun settlement mem reserves => .settling settlement mem reserves) (fun mem => .cleanup ?_)
    exact (List.mem_erase_of_ne fun heq => hkept (congrArg some heq.symm)).mpr mem
  | cleanPending other closed =>
    have hcleaned : ({ sys with pendingCleanups := sys.pendingCleanups.erase other } : Sys).Wired :=
      hwired.transfer rfl rfl (fun _ hempty => hempty) (fun _ _ hmem => .inl hmem)
    refine hcleaned.slotsOwned rfl (fun id hid _ => ?_) closed sys.clock
    exact (h id hid).mono rfl (List.Subset.refl _) (List.Subset.refl _) (List.Subset.refl _)

/-- As long as no completion or abort is dropped while it waits for the lock, every active id belongs
to a permit, to a settlement in progress or to a clean-up that will run. -/
theorem slots_owned (hrun : (scheduler inner).Run settlesAll sys) : sys.SlotsOwned :=
  (hrun.invariant (I := fun sys => sys.Wired ∧ sys.SlotsOwned)
    ⟨⟨.nil, fun _ hc => (nomatch hc), fun _ _ => rfl, fun _ _ hmem => (nomatch hmem)⟩,
      fun _ hid => absurd hid (AList.notMem_empty _)⟩
    (fun _ _ h henabled hallowed =>
      ⟨h.1.next henabled, h.2.next h.1 henabled hallowed⟩)).2

private theorem Sys.Owner.counted {id : Nat} (h : sys.Owner id) (howned : sys.Owned) : 0 < sys.owners id := by
  cases h with
  | held permit mem reserves => exact howned.owner_of_holds (.inl mem) reserves
  | sent c permit receiver channel reserves => exact howned.owner_of_holds (.inr (.inl ⟨c, channel⟩)) reserves
  | settling settlement mem reserves =>
    exact howned.owner_of_holds (.inr (.inr ⟨settlement, mem, rfl⟩)) reserves
  | cleanup mem =>
    have hpos := List.count_pos_iff.mpr mem
    unfold Sys.owners
    omega

/-- The lease is disarmed before the lock is there: a completion or an abort that is dropped while it
waits leaves its id active, and nobody will give it back. -/
theorem dropped_settlement_leaks (h : sys.Owned) {settlement : Settlement} (hmem : settlement ∈ sys.settling)
    {id : Nat} (hid : settlement.permit.reservationId = some id) :
    id ∈ (sys.next inner (.cancelSettle settlement)).state.active ∧
      ¬ (sys.next inner (.cancelSettle settlement)).Owner id := by
  obtain ⟨hafter, hzero⟩ := h.unsettle hmem
  refine ⟨h.backed settlement.permit id (.inr (.inr ⟨settlement, hmem, rfl⟩)) hid, fun howner => ?_⟩
  exact Nat.lt_irrefl 0 (hzero id hid ▸ howner.counted hafter)

section Witness

private def oneSlot : Inner :=
  .plain { enabled := true, limits := [{ maxConcurrency := some 1 }], queueCoalesceMs := 0 }

private def slotPermit : SchedulePermit :=
  { freePermit (.plain "openai" "key" "gpt") with reservationId := some 0, outputTokens := 16384 }

private def completion : Settlement := .complete slotPermit 0 none none none

private def sending : List Action := [.enqueue (.plain "openai" "key" "gpt") 0, .read 0, .pass 0 0 undisturbed,
  .receive 0 (.dispatch slotPermit), .settle completion]

private def waiting : Sys := (scheduler oneSlot).replay .initial sending

/-- A completion that waits for the lock owns the slot. -/
theorem slots_owned_settling : waiting.SlotsOwned :=
  slots_owned (.replay .initial (by decide : (scheduler oneSlot).Follows settlesAll .initial sending))

/-- The request is sent and answered, and its handler is dropped while `complete` waits for the lock:
the only slot stays taken. -/
theorem dropped_completion_leaks_slot :
    (scheduler oneSlot).Run (fun _ _ => True) (waiting.next oneSlot (.cancelSettle completion)) ∧
      0 ∈ (waiting.next oneSlot (.cancelSettle completion)).state.active ∧
      ¬ (waiting.next oneSlot (.cancelSettle completion)).Owner 0 := by
  have hrun : (scheduler oneSlot).Run (fun _ _ => True) waiting := .replay .initial (by decide)
  have howned : waiting.Owned := Sys.owned hrun (by decide)
  have hsettling : completion ∈ waiting.settling := by decide
  refine ⟨?_, dropped_settlement_leaks howned hsettling rfl⟩
  exact @Machine.Run.step _ _ (scheduler oneSlot) _ _ (.cancelSettle completion) hrun hsettling trivial

end Witness
end Kaiion.Scheduling
