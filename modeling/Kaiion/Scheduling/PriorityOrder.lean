import Kaiion.Scheduling.Selection

/-! A pass serves the queue in the order of priority, however the queue is iterated. -/
namespace Kaiion.Scheduling
open Foundation

variable {inner : Inner} {closed : Closings} {now : Nat} {s t : State}

@[simp] theorem removePending_sessions (s : State) (id : Nat) : (s.removePending id).sessions = s.sessions := by
  obtain ⟨bytes, h⟩ := removePending_eq s id
  rw [h]

/-- The outcome a rejected entry is sent, with its channel. -/
def answerTo (inner : Inner) (closed : Closings) (now : Nat) (s : State) (id : Nat) :
    Option (Nat × ScheduleOutcome) :=
  (s.pending.lookup id).bind fun pending =>
    if closed .reject pending.sender then none else some (pending.sender, rejection inner s now pending)

private theorem answerTo_removePending {id other : Nat} (h : other ≠ id) :
    answerTo inner closed now (s.removePending id) other = answerTo inner closed now s other := by
  have hrejection : ∀ pending, rejection inner (s.removePending id) now pending = rejection inner s now pending := by
    intro pending
    unfold rejection batchRecommendation State.sessionOf
    rw [removePending_sessions]
  unfold answerTo
  rw [removePending_pending, AList.lookup_erase_ne h]
  simp only [hrejection]

private theorem rejectPending_eq (inner : Inner) (closed : Closings) (now : Nat) {ids : List Nat} (hids : ids.Nodup)
    (s : State) : rejectPending inner closed now ids s =
      (ids.foldl State.removePending s, ids.filterMap (answerTo inner closed now s)) := by
  induction ids generalizing s with
  | nil => rfl
  | cons id ids ih =>
    obtain ⟨hid, hids⟩ := List.nodup_cons.mp hids
    have hsame : ids.filterMap (answerTo inner closed now (s.removePending id)) =
        ids.filterMap (answerTo inner closed now s) :=
      List.filterMap_congr fun other hother => answerTo_removePending fun h => hid (h ▸ hother)
    unfold rejectPending
    split
    next found =>
      have hkeep : s.removePending id = s := by simp [State.removePending, found]
      rw [ih hids, List.foldl_cons, hkeep]
      simp [answerTo, found]
    next pending found =>
      have hrejection : rejection inner (s.removePending id) now pending = rejection inner s now pending := by
        unfold rejection batchRecommendation State.sessionOf
        rw [removePending_sessions]
      dsimp only
      rw [ih hids, hsame, hrejection]
      dsimp only
      split
      next hclosed => simp [answerTo, found, hclosed]
      next hopen => simp [answerTo, found, hopen]

theorem Reordered.lookup (h : Reordered s t) (id : Nat) : t.pending.lookup id = s.pending.lookup id :=
  (AList.perm_lookup h.pending).symm

theorem Reordered.empty (h : Reordered s t) : t.pending.entries = [] ↔ s.pending.entries = [] :=
  ⟨fun hnil => List.perm_nil.mp (hnil ▸ h.pending), fun hnil => List.nil_perm.mp (hnil ▸ h.pending)⟩

theorem Reordered.removePending (h : Reordered s t) (id : Nat) :
    Reordered (s.removePending id) (t.removePending id) := by
  unfold State.removePending
  rw [h.lookup]
  cases s.pending.lookup id with
  | none => exact h
  | some pending => exact ⟨AList.perm_erase h.pending, by rw [h.rest]⟩

private instance : RightCommutative State.removePending where
  right_comm s a b := by
    by_cases hab : a = b
    · rw [hab]
    · unfold State.removePending
      cases ha : s.pending.lookup a <;> cases hb : s.pending.lookup b <;>
        simp [ha, hb, AList.lookup_erase_ne hab, AList.lookup_erase_ne (Ne.symm hab), AList.erase_erase a b,
          Nat.sub_right_comm]

theorem Reordered.removeAll (h : Reordered s t) {ids others : List Nat} (hperm : ids.Perm others) :
    Reordered (ids.foldl State.removePending s) (others.foldl State.removePending t) := by
  rw [← hperm.foldl_eq t]
  clear hperm
  induction ids generalizing s t with
  | nil => exact h
  | cons id ids ih => exact ih (h.removePending id)

theorem Reordered.answerTo (h : Reordered s t) :
    answerTo inner closed now t = Scheduling.answerTo inner closed now s := by
  funext id
  unfold Scheduling.answerTo rejection batchRecommendation State.sessionOf
  rw [h.lookup, h.rest]

/-- The passes remove the same entries with the same outcomes, reserve for the same request and are
due at the same time. -/
structure Pass.SameAs (pass other : Pass) : Prop where
  state : Reordered pass.state other.state
  due : other.due = pass.due
  sent : pass.sent.Perm other.sent
  returned : other.returned = pass.returned

private theorem dispatchBest_same (h : Reordered s t) (id : Nat) (pending : Pending)
    {sent sent' : List (Nat × ScheduleOutcome)} (hsent : sent.Perm sent') :
    (dispatchBest inner closed now id pending sent s).SameAs
      (dispatchBest inner closed now id pending sent' t) := by
  have hleft := h.removePending id
  unfold dispatchBest
  dsimp only
  generalize s.removePending id = s at hleft
  generalize t.removePending id = t at hleft
  split
  · simp only [hleft.empty]
    split
    · exact ⟨⟨hleft.pending, by rw [hleft.rest]⟩, rfl, hsent, rfl⟩
    · exact ⟨hleft, rfl, hsent, rfl⟩
  · split
    · exact ⟨⟨hleft.pending, by rw [hleft.rest]; rfl⟩, rfl, hsent, rfl⟩
    · exact ⟨⟨hleft.pending, by rw [hleft.rest]; rfl⟩, rfl, hsent.append_right _, rfl⟩

private theorem impossible_nodup (s : State) : (s.scan inner closed now).impossible.Nodup := by
  have hkeys : (s.pending.entries.map Sigma.fst).Nodup := s.pending.nodupKeys
  rw [scan_eq]
  exact hkeys.sublist (List.filter_sublist.map Sigma.fst)

theorem dispatchReady_same (h : Reordered s t) :
    (dispatchReady inner closed now s).SameAs (dispatchReady inner closed now t) := by
  obtain ⟨hbest, hdue, himpossible⟩ := h.scan inner closed now
  obtain ⟨-, -, -, -, hqueue⟩ := h.asks inner closed now
  have hleft := h.removeAll himpossible
  have hsent : ((s.scan inner closed now).impossible.filterMap (answerTo inner closed now s)).Perm
      ((t.scan inner closed now).impossible.filterMap (answerTo inner closed now t)) := by
    rw [h.answerTo]
    exact himpossible.filterMap _
  unfold dispatchReady
  dsimp only
  rw [rejectPending_eq inner closed now (impossible_nodup s), rejectPending_eq inner closed now (impossible_nodup t),
    hbest, hqueue, hdue]
  dsimp only
  generalize (s.scan inner closed now).impossible.foldl State.removePending s = s at hleft
  generalize (t.scan inner closed now).impossible.foldl State.removePending t = t at hleft
  split
  next id score time hchosen =>
    rw [hleft.lookup]
    split
    · exact dispatchBest_same hleft _ _ hsent
    · exact ⟨hleft, rfl, hsent, rfl⟩
  · simp only [hleft.empty]
    split
    · exact ⟨⟨hleft.pending, by rw [hleft.rest]⟩, rfl, hsent, rfl⟩
    · split
      · exact ⟨⟨hleft.pending, by rw [hleft.rest]⟩, rfl, hsent, rfl⟩
      · exact ⟨hleft, rfl, hsent, rfl⟩

/-- The reservations a pass makes, whether or not their permits could be delivered. -/
def Pass.reserved (pass : Pass) : List Nat := granted pass.sent ++ pass.returned

/-- The entry is the first of those the pass chooses from, by score, enqueue time and id. -/
def Leads (inner : Inner) (closed : Closings) (now : Nat) (s : State) (entry : Entry) : Prop :=
  IsBest (fun a b => outranks (rank inner now s a) (rank inner now s b))
    (candidates inner closed now s s.pending.entries) entry

private theorem granted_append (sent more : List (Nat × ScheduleOutcome)) :
    granted (sent ++ more) = granted sent ++ granted more := List.flatMap_append

/-- Rejections make no reservation. -/
private theorem granted_answers (inner : Inner) (closed : Closings) (now : Nat) (s : State) (ids : List Nat) :
    granted (ids.filterMap (answerTo inner closed now s)) = [] := by
  induction ids with
  | nil => rfl
  | cons id ids ih =>
    cases hanswer : answerTo inner closed now s id with
    | none => rwa [List.filterMap_cons_none hanswer]
    | some message =>
      obtain ⟨c, outcome⟩ := message
      rw [List.filterMap_cons_some hanswer, granted_cons, ih, List.append_nil]
      unfold answerTo at hanswer
      obtain ⟨pending, -, hanswer⟩ := Option.bind_eq_some_iff.mp hanswer
      split at hanswer
      · cases hanswer
      · cases hanswer
        unfold rejection
        split <;> rfl

private theorem entry_of_id {a b : Entry} (ha : a ∈ s.pending.entries) (hb : b ∈ s.pending.entries)
    (hid : a.1 = b.1) : a = b :=
  List.inj_on_of_nodup_map (f := Sigma.fst) s.pending.nodupKeys ha hb hid

private theorem candidates_mem {entry : Entry} (h : entry ∈ candidates inner closed now s s.pending.entries) :
    entry ∈ s.pending.entries ∧ dispatchable inner closed now s entry = true := by
  unfold candidates at h
  split at h
  · exact List.mem_filter.mp h
  · exact nomatch h

/-- The scan's best is the entry that leads. -/
private theorem best_iff {best : Nat × Int × Nat} : (s.scan inner closed now).best = some best ↔
    ∃ entry, Leads inner closed now s entry ∧ rank inner now s entry = best := by
  rw [scan_eq]
  refine (keepBest_iff outranks_ranks).trans (isBest_map fun a ha b hb heq => ?_)
  exact entry_of_id (candidates_mem ha).1 (candidates_mem hb).1 (Prod.mk.inj heq).1

private theorem best_none : (s.scan inner closed now).best = none ↔
    candidates inner closed now s s.pending.entries = [] := by
  rw [scan_eq]
  exact keepBest_none.trans List.map_eq_nil_iff

/-- The entry that leads is still queued when the rejected ones are gone. -/
private theorem Leads.found {entry : Entry} (h : Leads inner closed now s entry) :
    ((s.scan inner closed now).impossible.foldl State.removePending s).pending.lookup entry.1 = some entry.2 := by
  obtain ⟨hmem, hdispatchable⟩ := candidates_mem h.mem
  have hnot : entry.1 ∉ (s.scan inner closed now).impossible := by
    rw [scan_eq]
    intro hid
    obtain ⟨other, hother, hsame⟩ := List.mem_map.mp hid
    obtain ⟨hother, hrejected⟩ := List.mem_filter.mp hother
    cases entry_of_id hother hmem hsame
    simp only [dispatchable, rejected, Pending.readyAt, Fit.readyBy, Bool.and_eq_true, Bool.or_eq_true,
      Bool.not_eq_true'] at hdispatchable hrejected
    obtain ⟨hopen, hpossible, -⟩ := hdispatchable
    rw [hopen, hpossible] at hrejected
    exact absurd hrejected (by simp)
  have kept : ∀ (ids : List Nat) (s : State), entry.1 ∉ ids →
      (ids.foldl State.removePending s).pending.lookup entry.1 = s.pending.lookup entry.1 := by
    intro ids
    induction ids with
    | nil => exact fun _ _ => rfl
    | cons id ids ih =>
      intro s hids
      rw [List.mem_cons, not_or] at hids
      rw [List.foldl_cons, ih _ hids.2, removePending_pending, AList.lookup_erase_ne hids.1]
  rw [kept _ s hnot]
  exact AList.mem_lookup_iff.mpr hmem

/-- The entry that leads leaves the queue, reserved unless its receiver has closed since. -/
theorem Leads.served {entry : Entry} (h : Leads inner closed now s entry) :
    (dispatchReady inner closed now s).reserved = (if closed .reserve entry.2.sender then [] else [entry.1]) ∧
      entry.1 ∉ (dispatchReady inner closed now s).state.pending := by
  have hbest := best_iff.mpr ⟨entry, h, rfl⟩
  have hfound := h.found
  unfold dispatchReady
  dsimp only
  rw [hbest, rejectPending_eq inner closed now (impossible_nodup s)]
  dsimp only [rank]
  rw [hfound]
  dsimp only
  have hsent := granted_answers inner closed now s (s.scan inner closed now).impossible
  generalize (s.scan inner closed now).impossible.filterMap (answerTo inner closed now s) = sent at hsent
  generalize (s.scan inner closed now).impossible.foldl State.removePending s = left
  unfold dispatchBest Pass.reserved
  dsimp only
  cases hreserve : closed .reserve entry.2.sender with
  | true =>
    simp only [if_true]
    split <;> simp [hsent]
  | false =>
    cases hsend : closed .send entry.2.sender with
    | true => simp [hsent, State.retract, State.reserve]
    | false => simp [granted_append, hsent, updatePacing, State.reserve]

/-- For every state, one pass does the same in whatever order the queue is iterated: it removes the same
entries with the same outcomes, reserves for the same request and is due at the same time. It serves
the entry that leads the open dispatchable ones, and reserves for nothing when there is none. -/
theorem selection_is_priority_order (inner : Inner) (closed : Closings) (now : Nat) (s : State) :
    (∀ t, Reordered s t → (dispatchReady inner closed now s).SameAs (dispatchReady inner closed now t)) ∧
    (candidates inner closed now s s.pending.entries = [] → (dispatchReady inner closed now s).reserved = []) ∧
    (candidates inner closed now s s.pending.entries ≠ [] → ∃ entry, Leads inner closed now s entry ∧
      (dispatchReady inner closed now s).reserved = (if closed .reserve entry.2.sender then [] else [entry.1]) ∧
      entry.1 ∉ (dispatchReady inner closed now s).state.pending) := by
  refine ⟨fun t => dispatchReady_same, fun hnone => ?_, fun hsome => ?_⟩
  · have hbest := best_none.mpr hnone
    have hsent := granted_answers inner closed now s (s.scan inner closed now).impossible
    unfold dispatchReady
    dsimp only
    rw [hbest, rejectPending_eq inner closed now (impossible_nodup s)]
    dsimp only
    split <;> simp [Pass.reserved, hsent]
  · cases hbest : (s.scan inner closed now).best with
    | none => exact absurd (best_none.mp hbest) hsome
    | some best =>
      obtain ⟨entry, hleads, -⟩ := best_iff.mp hbest
      exact ⟨entry, hleads, hleads.served⟩

end Kaiion.Scheduling
