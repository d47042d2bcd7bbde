import Kaiion.Scheduling.Moves

/-! A pass over the queue makes only moves, and the instant it returns covers every request it
leaves waiting. -/
namespace Kaiion.Scheduling
open Foundation

variable {inner : Inner} {mayOpen : Nat → Prop} {now : Nat} {s t : State}
variable {sent : List (Nat × ScheduleOutcome)}

/-- A queued request the scan leaves in the queue, with the instant it may be sent. -/
structure Fits (inner : Inner) (s : State) (closed : Closings) (now : Nat)
    (entry : Sigma fun _ : Nat => Pending) (instant : Nat) : Prop where
  receiver : closed .scan entry.2.sender = false
  possible : (entry.2.fit inner s now).impossible = false
  atTime : (entry.2.fit inner s now).atTime = some instant

/-- What the scan knows about the entries it has seen. -/
structure Scanned (inner : Inner) (s : State) (closed : Closings) (now : Nat) (ready : Bool)
    (start : Option Nat) (seen : List (Sigma fun _ : Nat => Pending)) (scan : Scan) : Prop where
  best : ∀ id score enqueuedAt, scan.best = some (id, score, enqueuedAt) →
    ∃ pending instant, ⟨id, pending⟩ ∈ seen ∧ Fits inner s closed now ⟨id, pending⟩ instant ∧
      instant ≤ now ∧ ready = true
  chosen : ∀ entry ∈ seen, ∀ instant, Fits inner s closed now entry instant → instant ≤ now →
    ready = true → scan.best.isSome
  due : ∀ entry ∈ seen, ∀ instant, Fits inner s closed now entry instant → now < instant →
    ∃ due, scan.nextDue = some due ∧ due ≤ instant
  kept : ∀ instant, start = some instant → ∃ due, scan.nextDue = some due ∧ due ≤ instant
  later : ∀ due, scan.nextDue = some due → now < due

private theorem earlier_le (due : Option Nat) (instant : Nat) :
    ∃ next, earlier due instant = some next ∧ next ≤ instant ∧ ∀ old, due = some old → next ≤ old := by
  cases due with
  | none => exact ⟨instant, rfl, Nat.le_refl _, fun _ h => nomatch h⟩
  | some old => exact ⟨_, rfl, Nat.min_le_right _ _, fun _ h => Option.some.inj h ▸ Nat.min_le_left _ _⟩

private theorem earlier_lt {due : Option Nat} {instant next : Nat} (h : earlier due instant = some next)
    (hinstant : now < instant) (hdue : ∀ old, due = some old → now < old) : now < next := by
  cases due with
  | none => exact Option.some.inj h ▸ hinstant
  | some old => exact Option.some.inj h ▸ Nat.lt_min.mpr ⟨hdue old rfl, hinstant⟩

/-- What one more entry has to bring. -/
private theorem Scanned.extend {closed : Closings} {ready : Bool} {start : Option Nat}
    {seen : List (Sigma fun _ : Nat => Pending)} {scan next : Scan} {id : Nat} {pending : Pending}
    (h : Scanned inner s closed now ready start seen scan)
    (best : ∀ i score time, next.best = some (i, score, time) → scan.best = some (i, score, time) ∨
      i = id ∧ ∃ instant, Fits inner s closed now ⟨id, pending⟩ instant ∧ instant ≤ now ∧ ready = true)
    (still : scan.best.isSome → next.best.isSome)
    (chosen : ∀ instant, Fits inner s closed now ⟨id, pending⟩ instant → instant ≤ now →
      ready = true → next.best.isSome)
    (kept : ∀ old, scan.nextDue = some old → ∃ due, next.nextDue = some due ∧ due ≤ old)
    (due : ∀ instant, Fits inner s closed now ⟨id, pending⟩ instant → now < instant →
      ∃ due, next.nextDue = some due ∧ due ≤ instant)
    (later : ∀ due, next.nextDue = some due → now < due) :
    Scanned inner s closed now ready start (seen ++ [⟨id, pending⟩]) next where
  best i score time hb := by
    rcases best i score time hb with hb | ⟨rfl, instant, hfit, hle, hready⟩
    · obtain ⟨p, instant, hmem, hrest⟩ := h.best i score time hb
      exact ⟨p, instant, List.mem_append_left _ hmem, hrest⟩
    · exact ⟨pending, instant, by simp, hfit, hle, hready⟩
  chosen entry hentry instant hfit hle hready := by
    rcases List.mem_append.mp hentry with hentry | hentry
    · exact still (h.chosen entry hentry instant hfit hle hready)
    · cases List.mem_singleton.mp hentry
      exact chosen instant hfit hle hready
  due entry hentry instant hfit hlt := by
    rcases List.mem_append.mp hentry with hentry | hentry
    · obtain ⟨old, hold, hle⟩ := h.due entry hentry instant hfit hlt
      obtain ⟨next, hnext, hle'⟩ := kept old hold
      exact ⟨next, hnext, Nat.le_trans hle' hle⟩
    · cases List.mem_singleton.mp hentry
      exact due instant hfit hlt
  kept instant hstart := by
    obtain ⟨old, hold, hle⟩ := h.kept instant hstart
    obtain ⟨next, hnext, hle'⟩ := kept old hold
    exact ⟨next, hnext, Nat.le_trans hle' hle⟩
  later := later

private theorem scanOne_scanned {closed : Closings} {ready : Bool} {start : Option Nat}
    {seen : List (Sigma fun _ : Nat => Pending)} {scan : Scan} (id : Nat) (pending : Pending)
    (h : Scanned inner s closed now ready start seen scan) :
    Scanned inner s closed now ready start (seen ++ [⟨id, pending⟩])
      (scanOne inner s closed now ready scan id pending) := by
  have same : ∀ old, scan.nextDue = some old → ∃ due, scan.nextDue = some due ∧ due ≤ old :=
    fun old hold => ⟨old, hold, Nat.le_refl old⟩
  have fits : ∀ {instant}, Fits inner s closed now ⟨id, pending⟩ instant →
      closed .scan pending.sender = false ∧ (pending.fit inner s now).impossible = false ∧
        (pending.fit inner s now).atTime = some instant :=
    fun hfit => ⟨hfit.receiver, hfit.possible, hfit.atTime⟩
  unfold scanOne
  dsimp only
  split
  next hclosed =>
    exact h.extend (fun _ _ _ hb => .inl hb) (fun hb => hb) (by grind) same (by grind) h.later
  next hopen =>
  split
  next himp =>
    exact h.extend (fun _ _ _ hb => .inl hb) (fun hb => hb) (by grind) same (by grind) h.later
  next hpossible =>
  split
  next hnone =>
    exact h.extend (fun _ _ _ hb => .inl hb) (fun hb => hb) (by grind) same (by grind) h.later
  next instant hinstant =>
  split
  next hlt =>
    obtain ⟨next, hnext, hle, hold⟩ := earlier_le scan.nextDue instant
    exact h.extend (fun _ _ _ hb => .inl hb) (fun hb => hb) (by grind)
      (fun old ho => ⟨next, hnext, hold old ho⟩) (by grind) (fun due hdue => earlier_lt hdue hlt h.later)
  next hge =>
  have hfit : Fits inner s closed now ⟨id, pending⟩ instant :=
    ⟨by simpa using hopen, by simpa using hpossible, hinstant⟩
  split
  next hwait =>
    exact h.extend (fun _ _ _ hb => .inl hb) (fun hb => hb) (by grind) same (by grind) h.later
  next hready =>
  split
  next hbeats =>
    refine h.extend (fun i score time hb => .inr ?_) (fun _ => rfl) (fun _ _ _ _ => rfl) same (by grind)
      h.later
    cases hb
    exact ⟨rfl, instant, hfit, by omega, by simpa using hready⟩
  next hbeats =>
    have hsome : scan.best.isSome := by
      cases hb : scan.best with
      | none => simp [hb, beats] at hbeats
      | some best => rfl
    exact h.extend (fun _ _ _ hb => .inl hb) (fun hb => hb) (fun _ _ _ _ => hsome) same (by grind) h.later

private theorem scanPending_scanned {closed : Closings} {ready : Bool} {start : Option Nat}
    {seen : List (Sigma fun _ : Nat => Pending)} {scan : Scan} (entries : List (Sigma fun _ : Nat => Pending))
    (h : Scanned inner s closed now ready start seen scan) :
    Scanned inner s closed now ready start (seen ++ entries)
      (scanPending inner s closed now ready entries scan) := by
  induction entries generalizing seen scan with
  | nil => simpa [scanPending] using h
  | cons entry entries ih =>
    have hrest := ih (scanOne_scanned entry.1 entry.2 h)
    simpa [scanPending] using hrest

theorem scan_scanned (inner : Inner) (closed : Closings) (now : Nat) (s : State) :
    Scanned inner s closed now (queueReady s now) (s.coalesceUntil.filter (fun instant => now < instant))
      s.pending.entries (s.scan inner closed now) := by
  have start : Scanned inner s closed now (queueReady s now)
      (s.coalesceUntil.filter (fun instant => now < instant)) []
      { best := none, nextDue := s.coalesceUntil.filter (fun instant => now < instant), impossible := [] } :=
    { best := fun _ _ _ h => nomatch h
      chosen := fun _ h => nomatch h
      due := fun _ h => nomatch h
      kept := fun instant h => ⟨instant, h, Nat.le_refl _⟩
      later := fun due h => by simpa using (Option.filter_eq_some_iff.mp h).2 }
  exact scanPending_scanned s.pending.entries start

private theorem rejectPending_moves (inner : Inner) (mayOpen : Nat → Prop) (now : Nat)
    (closed : Closings) (ids : List Nat) (s : State) :
    Moves inner mayOpen now s (rejectPending inner closed now ids s).2 []
      (rejectPending inner closed now ids s).1 := by
  induction ids generalizing s with
  | nil => exact .stop s
  | cons id ids ih =>
    unfold rejectPending
    split
    · exact ih s
    next pending found =>
      dsimp only
      split
      · exact .discard id pending found (ih _)
      · refine .refuse id pending found _ (fun permit h => ?_) (ih _)
        unfold rejection at h
        split at h <;> cases h

/-- Rejections leave everything but the queue alone. -/
private theorem rejectPending_frame (inner : Inner) (now : Nat) (closed : Closings) (ids : List Nat) (s : State) :
    let t := (rejectPending inner closed now ids s).1
    t.events = s.events ∧ t.active = s.active ∧ t.pacing = s.pacing ∧ t.coalesceUntil = s.coalesceUntil := by
  induction ids generalizing s with
  | nil => exact ⟨rfl, rfl, rfl, rfl⟩
  | cons id ids ih =>
    unfold rejectPending
    split
    · exact ih s
    next pending found =>
      have hrest := ih (s.removePending id)
      simp only [removePending_events, removePending_active, removePending_pacing,
        removePending_coalesceUntil] at hrest
      dsimp only
      split <;> exact hrest

private theorem rejectPending_sublist (inner : Inner) (now : Nat) (closed : Closings) (ids : List Nat) (s : State) :
    (rejectPending inner closed now ids s).1.pending.entries.Sublist s.pending.entries := by
  induction ids generalizing s with
  | nil => exact .refl _
  | cons id ids ih =>
    unfold rejectPending
    split
    · exact ih s
    next pending found =>
      have hrest := ih (s.removePending id)
      rw [removePending_pending] at hrest
      have hsub := hrest.trans (erase_entries_sublist id s.pending)
      dsimp only
      split <;> exact hsub

/-- What the scan found stands when the rejected entries are gone. -/
private theorem readyAt_of_fits {closed : Closings} {id instant : Nat} {pending : Pending}
    (h : Fits inner s closed now ⟨id, pending⟩ instant) (hle : instant ≤ now)
    (hevents : t.events = s.events) (hactive : t.active = s.active) (hpacing : t.pacing = s.pacing) :
    pending.readyAt inner t now = true := by
  unfold Pending.readyAt
  rw [fit_congr hevents hactive hpacing]
  simp [Fit.readyBy, h.possible, h.atTime, hle]

private theorem dispatchBest_moves {closed : Closings} (hopen : ∀ c, closed .send c = false → mayOpen c)
    {id : Nat} {pending : Pending} (found : s.pending.lookup id = some pending)
    (ready : pending.readyAt inner s now = true) (sent : List (Nat × ScheduleOutcome)) :
    ∃ more, (dispatchBest inner closed now id pending sent s).sent = sent ++ more ∧
      Moves inner mayOpen now s more (dispatchBest inner closed now id pending sent s).returned
        (dispatchBest inner closed now id pending sent s).state := by
  unfold dispatchBest
  dsimp only
  split
  · split
    next hempty => exact ⟨[], by simp, .discard id pending found (.calm (.inl hempty) (.stop _))⟩
    · exact ⟨[], by simp, .discard id pending found (.stop _)⟩
  · split
    · exact ⟨[], by simp, .undo id pending found (.stop _)⟩
    next hsend => exact ⟨_, rfl, .grant id pending found ready (hopen _ (by simpa using hsend)) (.stop _)⟩

theorem dispatchReady_moves (inner : Inner) {closed : Closings} {mayOpen : Nat → Prop}
    (hopen : ∀ c, closed .send c = false → mayOpen c) (now : Nat) (s : State) :
    Moves inner mayOpen now s (dispatchReady inner closed now s).sent
      (dispatchReady inner closed now s).returned (dispatchReady inner closed now s).state := by
  have rejects := rejectPending_moves inner mayOpen now closed
    (s.scan inner closed now).impossible s
  obtain ⟨hevents, hactive, hpacing, hcoalesce⟩ := rejectPending_frame inner now closed
    (s.scan inner closed now).impossible s
  unfold dispatchReady
  dsimp only
  split
  next id score time hbest =>
    split
    next pending found =>
      obtain ⟨pending', instant, hmem, hfit, hle, -⟩ := (scan_scanned inner closed now s).best id score time hbest
      have hsame : some pending' = some pending :=
        (AList.mem_lookup_iff.mpr hmem).symm.trans
          (lookup_of_sublist (rejectPending_sublist inner now closed _ s) found)
      cases hsame
      obtain ⟨more, hsent, hmoves⟩ := dispatchBest_moves hopen found
        (readyAt_of_fits hfit hle hevents hactive hpacing)
        (rejectPending inner closed now (s.scan inner closed now).impossible s).2
      rw [hsent]
      simpa using rejects.trans hmoves
    · exact rejects
  next hbest =>
    split
    next hempty => simpa using rejects.trans (.calm (.inl hempty) (.stop _))
    · split
      next hready =>
        have calmed : queueReady (rejectPending inner closed now (s.scan inner closed now).impossible s).1 now =
            true := by
          unfold queueReady at hready ⊢
          rw [hcoalesce]
          exact hready
        simpa using rejects.trans (.calm (.inr calmed) (.stop _))
      · exact rejects

/-- Rejections send no permits. -/
private theorem rejectPending_live {closed : Closings} {ids : List Nat} {s : State} {sender : Nat}
    {permit : SchedulePermit} : (sender, .dispatch permit) ∉ (rejectPending inner closed now ids s).2 := by
  induction ids generalizing s with
  | nil => simp [rejectPending]
  | cons id ids ih =>
    unfold rejectPending
    split
    · exact ih
    · dsimp only
      split
      · exact ih
      · intro h
        rcases List.mem_cons.mp h with h | h
        · unfold rejection at h
          split at h <;> cases h
        · exact ih h

/-- A pass that sends a permit has recorded a request that was ready. -/
theorem dispatchReady_sent {closed : Closings} {sender : Nat} {permit : SchedulePermit}
    (h : (sender, .dispatch permit) ∈ (dispatchReady inner closed now s).sent) :
    ∃ id pending, s.pending.lookup id = some pending ∧ pending.readyAt inner s now = true ∧
      sender = pending.sender ∧ permit = pending.permit id now ∧
      (dispatchReady inner closed now s).state.events = s.events ++ [pending.event id now] := by
  obtain ⟨hevents, hactive, hpacing, -⟩ := rejectPending_frame inner now closed
    (s.scan inner closed now).impossible s
  unfold dispatchReady at h ⊢
  dsimp only at h ⊢
  split at h
  next id score time hbest =>
    obtain ⟨pending, instant, hmem, hfit, hle, -⟩ := (scan_scanned inner closed now s).best id score time hbest
    have found := AList.mem_lookup_iff.mpr hmem
    split at h
    next pending' found' =>
      cases found.symm.trans (lookup_of_sublist (rejectPending_sublist inner now closed _ s) found')
      have hready := readyAt_of_fits hfit hle rfl rfl rfl
      unfold dispatchBest at h ⊢
      dsimp only at h ⊢
      split at h
      · split at h <;> exact absurd h rejectPending_live
      next hreserve =>
        split at h
        · exact absurd h rejectPending_live
        next hsend =>
          rcases List.mem_append.mp h with h | h
          · exact absurd h rejectPending_live
          · cases List.mem_singleton.mp h
            refine ⟨id, pending, found, hready, rfl, rfl, ?_⟩
            rw [if_neg hreserve, if_neg hsend]
            simp [updatePacing, State.reserve, hevents]
    · exact absurd h rejectPending_live
  next hbest =>
    split at h <;> exact absurd h rejectPending_live

theorem dispatchAvailable_moves (inner : Inner) {closed : Nat → Closings} {mayOpen : Nat → Prop}
    (hopen : ∀ n c, closed n .send c = false → mayOpen c) (now : Nat) (s : State) :
    Moves inner mayOpen now s (dispatchAvailable inner closed now s).sent
      (dispatchAvailable inner closed now s).returned (dispatchAvailable inner closed now s).state := by
  have loop : ∀ fuel s, Moves inner mayOpen now s (dispatchLoop inner closed now fuel s).sent
      (dispatchLoop inner closed now fuel s).returned (dispatchLoop inner closed now fuel s).state := by
    intro fuel
    induction fuel with
    | zero => exact fun s => .stop s
    | succ fuel ih =>
      intro s
      have hpass := dispatchReady_moves inner (hopen fuel) now s
      unfold dispatchLoop
      dsimp only
      split
      · exact hpass.trans (ih _)
      · exact hpass
  exact loop _ s

/-- The chosen request is gone from the queue when the pass ends. -/
private theorem dispatchBest_removes (closed : Closings) (id : Nat) (pending : Pending) (s : State) :
    (dispatchBest inner closed now id pending sent s).state.pending = s.pending.erase id := by
  unfold dispatchBest
  dsimp only
  split
  · split <;> simp
  · split
    · simp
    · exact grant_pending id pending

private theorem queue_shrinks (inner : Inner) (closed : Closings) (now : Nat) (s : State) :
    (dispatchReady inner closed now s).state.pending.entries.Sublist s.pending.entries :=
  (dispatchReady_moves inner (fun _ _ => trivial : ∀ c, closed .send c = false → True) now s).sublist

/-- A pass that asks to be repeated has shortened the queue. -/
theorem dispatchReady_shortens (closed : Closings) (s : State) {due : Nat}
    (hdue : (dispatchReady inner closed now s).due = some due) (hle : due ≤ now) :
    (dispatchReady inner closed now s).state.pending.entries.length < s.pending.entries.length := by
  have hsub := (queue_shrinks inner closed now s)
  -- An entry is missing, so the shorter list is not the whole of the longer one.
  have shorter : ∀ {id pending}, s.pending.lookup id = some pending →
      (dispatchReady inner closed now s).state.pending.lookup id = none →
      (dispatchReady inner closed now s).state.pending.entries.length < s.pending.entries.length := by
    intro id pending found hgone
    rcases Nat.lt_or_ge (dispatchReady inner closed now s).state.pending.entries.length
      s.pending.entries.length with h | h
    · exact h
    · rw [AList.ext (hsub.eq_of_length_le h), found] at hgone
      cases hgone
  have hscan := scan_scanned inner closed now s
  cases hbest : (s.scan inner closed now).best with
  | none =>
    exfalso
    have hlater := hscan.later due
    unfold dispatchReady at hdue
    simp only [hbest] at hdue
    split at hdue
    · cases hdue
    · exact absurd (hlater hdue) (by omega)
  | some best =>
    obtain ⟨id, score, time⟩ := best
    obtain ⟨pending, -, hmem, -⟩ := hscan.best id score time hbest
    refine shorter (AList.mem_lookup_iff.mpr hmem) ?_
    unfold dispatchReady
    simp only [hbest]
    split
    · rw [dispatchBest_removes, AList.lookup_erase]
    next hgone => exact hgone

private theorem dispatchBest_due (closed : Closings) {id other : Nat} {pending left : Pending}
    (found : (dispatchBest inner closed now id pending sent s).state.pending.lookup other = some left) :
    (dispatchBest inner closed now id pending sent s).due = some now := by
  rw [dispatchBest_removes] at found
  unfold dispatchBest
  dsimp only
  split
  · split
    next hempty =>
      rw [removePending_pending] at hempty
      exact absurd (AList.mem_lookup_iff.mp found) (by simp [hempty])
    · rfl
  · split <;> rfl

/-- A pass returns by when a request it leaves in the queue may be sent. -/
theorem dispatchReady_wakes (closed : Closings) (s : State) {id instant : Nat} {pending : Pending}
    (found : (dispatchReady inner closed now s).state.pending.lookup id = some pending)
    (receiver : closed .scan pending.sender = false)
    (possible : (pending.fit inner s now).impossible = false)
    (atTime : (pending.fit inner s now).atTime = some instant) {time : Nat} (hnow : now ≤ time)
    (hinstant : instant ≤ time) (hqueue : queueReady (dispatchReady inner closed now s).state time = true) :
    ∃ due, (dispatchReady inner closed now s).due = some due ∧ due ≤ time := by
  have hscan := scan_scanned inner closed now s
  have hmem : ⟨id, pending⟩ ∈ s.pending.entries :=
    AList.mem_lookup_iff.mp (lookup_of_sublist (queue_shrinks inner closed now s) found)
  have hfit : Fits inner s closed now ⟨id, pending⟩ instant := ⟨receiver, possible, atTime⟩
  obtain ⟨-, -, -, hcoalesce⟩ := rejectPending_frame inner now closed
    (s.scan inner closed now).impossible s
  unfold dispatchReady at found hqueue ⊢
  dsimp only at found hqueue ⊢
  split at found
  next id' score time' hbest =>
    simp only [hbest] at hqueue ⊢
    split at found
    next pending' found' => exact ⟨now, dispatchBest_due closed found, hnow⟩
    · exact ⟨now, rfl, hnow⟩
  next hbest =>
    simp only [hbest] at hqueue ⊢
    split at found
    next hempty => exact absurd (AList.mem_lookup_iff.mp found) (by simp [hempty])
    next hsome =>
      simp only [if_neg hsome] at hqueue ⊢
      by_cases hlt : now < instant
      · obtain ⟨due, hdue, hle⟩ := hscan.due _ hmem instant hfit hlt
        exact ⟨due, hdue, Nat.le_trans hle hinstant⟩
      · -- The request is ready, so the pass only waits for the queue to coalesce.
        have hwait : queueReady s now = false := by
          by_contra hready
          have hchosen := hscan.chosen _ hmem instant hfit (by omega) (by simpa using hready)
          simp [hbest] at hchosen
        cases hc : s.coalesceUntil with
        | none => simp [queueReady, hc] at hwait
        | some release =>
          have hlater : now < release := by simpa [queueReady, hc] using hwait
          obtain ⟨due, hdue, hle⟩ := hscan.kept release (by simp [hc, hlater])
          rw [if_neg (by simp [hwait])] at hqueue
          have hle' : release ≤ time := by simpa [queueReady, hcoalesce, hc] using hqueue
          exact ⟨due, hdue, Nat.le_trans hle hle'⟩

/-- A pass that need not be repeated leaves nothing waiting, or takes entries out of the queue and
changes nothing that readiness reads. -/
theorem dispatchReady_frame {closed : Closings} {s : State}
    (hdone : (dispatchReady inner closed now s).due.any (fun due => due ≤ now) = false) :
    let t := (dispatchReady inner closed now s).state
    t.pending.entries = [] ∨ t.events = s.events ∧ t.active = s.active ∧ t.pacing = s.pacing := by
  obtain ⟨hevents, hactive, hpacing, -⟩ := rejectPending_frame inner now closed
    (s.scan inner closed now).impossible s
  intro t
  have hdue : (dispatchReady inner closed now s).due ≠ some now := fun heq => by simp [heq] at hdone
  cases hentries : t.pending.entries with
  | nil => exact .inl rfl
  | cons entry rest =>
    obtain ⟨id, pending⟩ := entry
    have found : t.pending.lookup id = some pending :=
      AList.mem_lookup_iff.mpr (by rw [hentries]; exact List.mem_cons_self)
    refine .inr ?_
    revert found hdue
    unfold t dispatchReady
    dsimp only
    split
    next best score time hbest =>
      split
      next chosen hchosen => exact fun hdue found => absurd (dispatchBest_due closed found) hdue
      · exact fun hdue _ => absurd rfl hdue
    next hbest =>
      split
      next hempty => exact fun _ _ => ⟨hevents, hactive, hpacing⟩
      · split <;> exact fun _ _ => ⟨hevents, hactive, hpacing⟩

end Kaiion.Scheduling
